import Beemesh.Provider.Announce

/-!
# Renewals on time

The libp2p loop looks every half a second for announcements that are due, tries these again, and
puts the next time off by a third of the time to live, or two seconds where that is more. A try that
fails counts like one that succeeds.

## Main definitions

* `AnnounceEntry.Due`, `AnnounceEntry.renewed`: what a pass of the loop makes of an entry
* `RenewalWatch`, `renewalStep`: the announcements, with the times at which they were tried
* `RenewalWatch.OnTime`: every entry is due an interval after it was tried, and after the last pass
* `PassesWithin δ`: the loop passes in time

## Main results

* `lookup_renewDueProviders`: a pass, entry by entry
* `RenewalWatch.OnTime.step`: what every step keeps
* `renewals_on_time`: the time between two tries of a key, and what it is to the time to live
-/

namespace Beemesh

open Run

/-! ## A pass of the loop -/

/-- A pass of the loop tries the entry. -/
def AnnounceEntry.Due (now : Instant) (e : AnnounceEntry) : Prop := e.ttlMs ≠ 0 ∧ e.nextDue ≤ now

instance (now : Instant) (e : AnnounceEntry) : Decidable (e.Due now) :=
  inferInstanceAs (Decidable (_ ∧ _))

/-- The entry after a pass. -/
def AnnounceEntry.renewed (now : Instant) (e : AnnounceEntry) : AnnounceEntry :=
  if e.Due now then ⟨e.ttlMs, now + renewalInterval e.ttlMs⟩ else e

@[simp] theorem AnnounceEntry.renewed_ttlMs (now : Instant) (e : AnnounceEntry) :
    (e.renewed now).ttlMs = e.ttlMs := by
  rw [AnnounceEntry.renewed]
  split_ifs <;> rfl

namespace Announcements

variable (stored : String → Except String Unit)

theorem renewEntry_now (s : Announcements) (e : Sigma fun _ : String => AnnounceEntry) :
    (s.renewEntry stored e).now = s.now := by
  rw [renewEntry]
  split_ifs <;> rfl

/-- What the loop does for an entry, to every entry. -/
theorem lookup_renewEntry {s : Announcements} {e : Sigma fun _ : String => AnnounceEntry}
    (he : s.active.lookup e.1 = some e.2) (cid : String) :
    (s.renewEntry stored e).active.lookup cid =
      if cid = e.1 then some (e.2.renewed s.now) else s.active.lookup cid := by
  by_cases hcid : cid = e.1
  · subst hcid
    rw [if_pos rfl, AnnounceEntry.renewed, renewEntry]
    by_cases hzero : e.2.ttlMs = 0
    · rw [if_pos hzero, if_neg fun h => h.1 hzero, he]
    · rw [if_neg hzero]
      by_cases hdue : e.2.nextDue ≤ s.now
      · rw [if_pos hdue, if_pos ⟨hzero, hdue⟩, AList.lookup_insert]
      · rw [if_neg hdue, if_neg fun h => hdue h.2, he]
  · rw [if_neg hcid, renewEntry]
    split_ifs
    · rfl
    · exact AList.lookup_insert_ne hcid
    · rfl

/-- **A pass of the loop**, entry by entry. -/
theorem lookup_renewDueProviders (s : Announcements) (cid : String) :
    (s.renewDueProviders stored).now = s.now ∧
      (s.renewDueProviders stored).active.lookup cid =
        (s.active.lookup cid).map (AnnounceEntry.renewed s.now) := by
  -- The loop runs over entries of different keys; those that it has not come to are as they were.
  have hloop (entries : List (Sigma fun _ : String => AnnounceEntry)) (s : Announcements)
      (hnodup : entries.NodupKeys) (hentries : ∀ e ∈ entries, s.active.lookup e.1 = some e.2) :
      (entries.foldl (renewEntry stored) s).now = s.now ∧
        (entries.foldl (renewEntry stored) s).active.lookup cid =
          if cid ∈ entries.keys then (s.active.lookup cid).map (AnnounceEntry.renewed s.now)
          else s.active.lookup cid := by
    induction entries generalizing s with
    | nil => exact ⟨rfl, rfl⟩
    | cons e entries ih =>
      obtain ⟨hnew, hnodup'⟩ := List.nodupKeys_cons.mp hnodup
      have he := hentries e List.mem_cons_self
      have hrest : ∀ e' ∈ entries, (s.renewEntry stored e).active.lookup e'.1 = some e'.2 := by
        intro e' he'
        have hne : e'.1 ≠ e.1 := fun h => hnew (h ▸ List.mem_map_of_mem he')
        rw [lookup_renewEntry stored he, if_neg hne]
        exact hentries e' (List.mem_cons_of_mem e he')
      obtain ⟨hnow, hlookup⟩ := ih (s.renewEntry stored e) hnodup' hrest
      rw [List.foldl_cons]
      refine ⟨hnow.trans (renewEntry_now stored s e), ?_⟩
      rw [hlookup, lookup_renewEntry stored he, renewEntry_now, List.keys_cons]
      by_cases hcid : cid = e.1
      · subst hcid
        rw [if_neg hnew, if_pos rfl, if_pos List.mem_cons_self, he, Option.map_some]
      · have hmem : cid ∈ e.1 :: entries.keys ↔ cid ∈ entries.keys := by
          rw [List.mem_cons, or_iff_right hcid]
        simp only [if_neg hcid, hmem]
  obtain ⟨hnow, hlookup⟩ := hloop s.active.entries s s.active.nodupKeys
    fun e he => AList.mem_entries_iff.mp he
  refine ⟨hnow, hlookup.trans ?_⟩
  split_ifs with hcid
  · rfl
  · rw [AList.lookup_eq_none.mpr hcid, Option.map_none]

end Announcements

/-! ## Tries -/

/-- A node's announcements, with the times at which the keys were last tried: when the loop announced
them, whether that succeeded or not, or when they were announced on request. A request that fails
does not count, since it leaves the entry as it was. -/
structure RenewalWatch where
  node : Announcements
  tried : String → Option Instant
  /-- The last pass of the loop. -/
  passed : Instant

def renewalStep (w : RenewalWatch) (a : AnnounceAction) : RenewalWatch where
  node := announceStep w.node a
  tried := match a with
    | .announceProvider cid ttlMs stored =>
      match (w.node.announceProvider stored cid ttlMs).1 with
      | .ok () => Function.update w.tried cid (some w.node.now)
      | .error _ => w.tried
    | .renewDueProviders _ => fun cid =>
      match w.node.active.lookup cid with
      | some e => if e.Due w.node.now then some w.node.now else w.tried cid
      | none => w.tried cid
    | _ => w.tried
  passed := match a with
    | .renewDueProviders _ => w.node.now
    | _ => w.passed

/-- A node that has announced nothing, and whose loop has passed. -/
def RenewalWatch.start (localPeerId : String) (ttlSeconds : U64) (now : Instant) : RenewalWatch :=
  ⟨.start localPeerId ttlSeconds now, fun _ => none, now⟩

/-- The entry is due an interval after its key was tried, and not before the next pass. -/
structure RenewalWatch.InTime (w : RenewalWatch) (cid : String) (e : AnnounceEntry) : Prop where
  passed : w.passed < e.nextDue
  tried : ∃ t, w.tried cid = some t ∧ t ≤ w.node.now ∧ e.nextDue = t + renewalInterval e.ttlMs

/-- Every entry that is renewed at all is in time. -/
structure RenewalWatch.OnTime (w : RenewalWatch) : Prop where
  passed_le : w.passed ≤ w.node.now
  entries : ∀ cid e, w.node.active.lookup cid = some e → e.ttlMs ≠ 0 → w.InTime cid e

theorem RenewalWatch.onTime_start (localPeerId : String) (ttlSeconds : U64) (now : Instant) :
    (RenewalWatch.start localPeerId ttlSeconds now).OnTime where
  passed_le := le_rfl
  entries _ _ he := nomatch he

theorem renewalInterval_pos (ttlMs : U64) : 0 < renewalInterval ttlMs := by
  have hmax : 2000 ≤ max 2000 (ttlMs.toNat / 3) := le_max_left _ _
  exact Nat.mul_pos (by omega) (by decide)

/-- An announcement on request that fails changes no entry, and one that succeeds its own. -/
theorem Announcements.announceProvider_active (s : Announcements)
    (stored : Vector (Except String Unit) 3) (cid : String) (ttlMs : U64) :
    (s.announceProvider stored cid ttlMs).2.now = s.now ∧
      match (s.announceProvider stored cid ttlMs).1 with
      | .ok () => ∃ next, (s.announceProvider stored cid ttlMs).2.active =
          s.active.insert cid ⟨ttlMs, next⟩ ∧ (ttlMs ≠ 0 → next = s.now + renewalInterval ttlMs)
      | .error _ => (s.announceProvider stored cid ttlMs).2.active = s.active := by
  rw [Announcements.announceProvider]
  rcases announceAttempts cid ttlMs stored.toList s.swarm with ⟨_ | _, swarm⟩
  · exact ⟨rfl, rfl⟩
  · exact ⟨rfl, _, rfl, fun hzero => if_neg hzero⟩

/-- Entries that are not tried stay in time, and entries may go. -/
theorem RenewalWatch.OnTime.untried {w w' : RenewalWatch} (h : w.OnTime)
    (hpassed : w'.passed = w.passed) (htried : w'.tried = w.tried)
    (hnow : w.node.now ≤ w'.node.now)
    (hactive : ∀ cid e, w'.node.active.lookup cid = some e → w.node.active.lookup cid = some e) :
    w'.OnTime := by
  refine ⟨hpassed ▸ h.passed_le.trans hnow, fun cid e he hzero => ?_⟩
  obtain ⟨hlate, t, ht, hle, hdue⟩ := h.entries cid e (hactive cid e he) hzero
  exact ⟨hpassed ▸ hlate, t, htried ▸ ht, hle.trans hnow, hdue⟩

/-- **What every step keeps**: the entries are in time. -/
theorem RenewalWatch.OnTime.step {w : RenewalWatch} (h : w.OnTime) (a : AnnounceAction) :
    (renewalStep w a).OnTime := by
  cases a with
  | announceProvider cid ttlMs stored =>
    obtain ⟨hnow, hactive⟩ := w.node.announceProvider_active stored cid ttlMs
    refine ⟨h.passed_le.trans hnow.ge, fun cid' e he hzero => ?_⟩
    simp only [renewalStep, announceStep] at he ⊢
    cases hresult : (w.node.announceProvider stored cid ttlMs).1 with
    | error e' =>
      rw [hresult] at hactive
      rw [hactive] at he
      obtain ⟨hpassed, t, htried, hle, hdue⟩ := h.entries cid' e he hzero
      exact ⟨hpassed, t, htried, hle.trans hnow.ge, hdue⟩
    | ok u =>
      rw [hresult] at hactive
      obtain ⟨next, hinsert, hnext⟩ := hactive
      rw [hinsert] at he
      by_cases hcid : cid' = cid
      · -- The key that is announced: it has been tried right now.
        subst hcid
        obtain rfl := Option.some.inj ((AList.lookup_insert _).symm.trans he)
        have hpos := renewalInterval_pos ttlMs
        refine ⟨?_, w.node.now, Function.update_self _ _ _, hnow.ge, hnext hzero⟩
        rw [hnext hzero]
        exact h.passed_le.trans_lt (Nat.lt_add_of_pos_right hpos)
      · rw [AList.lookup_insert_ne hcid] at he
        obtain ⟨hpassed, t, htried, hle, hdue⟩ := h.entries cid' e he hzero
        exact ⟨hpassed, t, (Function.update_of_ne hcid _ _).trans htried, hle.trans hnow.ge, hdue⟩
  | renewDueProviders stored =>
    refine ⟨(Announcements.lookup_renewDueProviders stored w.node "").1.ge,
      fun cid e' he' hzero => ?_⟩
    obtain ⟨hnow, hlookup⟩ := Announcements.lookup_renewDueProviders stored w.node cid
    obtain ⟨e, he, rfl⟩ := Option.map_eq_some_iff.mp (hlookup.symm.trans he')
    rw [AnnounceEntry.renewed_ttlMs] at hzero
    by_cases hdue : e.Due w.node.now
    · -- The pass tries the key, and puts it off by a full interval.
      have hrenewed : e.renewed w.node.now =
          ⟨e.ttlMs, w.node.now + renewalInterval e.ttlMs⟩ := if_pos hdue
      rw [hrenewed]
      refine ⟨Nat.lt_add_of_pos_right (renewalInterval_pos _), w.node.now, ?_, hnow.ge, rfl⟩
      simp only [renewalStep, he, if_pos hdue]
    · -- What is not due yet is due after this pass.
      have hlater : w.node.now < e.nextDue := Nat.lt_of_not_le fun hle => hdue ⟨hzero, hle⟩
      have hrenewed : e.renewed w.node.now = e := if_neg hdue
      obtain ⟨-, t, htried, hle, hnext⟩ := h.entries cid e he hzero
      rw [hrenewed]
      refine ⟨hlater, t, ?_, hle.trans hnow.ge, hnext⟩
      simp only [renewalStep, he, if_neg hdue, htried]
  | withdrawProvider cid stored =>
    exact h.untried rfl rfl le_rfl fun cid' e => AList.lookup_of_lookup_erase
  | withdrawAllProviders stored =>
    refine h.untried rfl rfl le_rfl fun cid e he => ?_
    exact absurd he (by simp [renewalStep, announceStep, Announcements.withdrawAllProviders])
  | elapse d => exact h.untried rfl rfl (Nat.le_add_right _ d) fun cid e => id
  | announceManifest | reannounceLocalProviders | stopProviding | connections =>
    exact h.untried rfl rfl le_rfl fun cid e => id

/-! ## The loop -/

/-- The last pass of the loop is no longer ago than `δ`. -/
def PassesWithin (δ : Duration) (w : RenewalWatch) (a : AnnounceAction) : Prop :=
  (renewalStep w a).node.now ≤ (renewalStep w a).passed + δ

instance (δ : Duration) (w : RenewalWatch) (a : AnnounceAction) : Decidable (PassesWithin δ w a) :=
  inferInstanceAs (Decidable (_ ≤ _))

/-- The watched node is the node. -/
theorem node_run_renewalStep (w : RenewalWatch) (acts : List AnnounceAction) :
    (run renewalStep w acts).node = run announceStep w.node acts :=
  run_image (fun _ _ => rfl) w acts

/-- A time to live in nanoseconds. -/
def AnnounceEntry.ttl (e : AnnounceEntry) : Duration := e.ttlMs.toNat * 10 ^ 6

/-- **Renewals on time**: where the loop passes every `δ`, a key is tried again no earlier than its
interval after the last time, and no later than that and `δ`, and is provided all along. With passes
every half a second this is within the time to live, if that is at least two seconds and a half; a
time to live below two seconds is over before the key is tried again. -/
theorem renewals_on_time (localPeerId : String) (ttlSeconds : U64) (start : Instant) {δ : Duration}
    {acts : List AnnounceAction}
    (hpasses : Guarded renewalStep (PassesWithin δ) (.start localPeerId ttlSeconds start) acts) :
    let w := run renewalStep (.start localPeerId ttlSeconds start) acts
    ∀ cid e, w.node.active.lookup cid = some e → e.ttlMs ≠ 0 →
      ∃ t, w.tried cid = some t ∧
        (e.Due w.node.now ↔ t + renewalInterval e.ttlMs ≤ w.node.now) ∧
        w.node.now < t + renewalInterval e.ttlMs + δ ∧
        (δ ≤ 500 * 10 ^ 6 → 2500 ≤ e.ttlMs.toNat → w.node.now < t + e.ttl) ∧
        (e.ttlMs.toNat < 2000 → e.Due w.node.now → t + e.ttl < w.node.now) ∧
        cid ∈ w.node.swarm.provided := by
  intro w cid e he hzero
  have hontime : w.OnTime :=
    run_invariant (fun _ a h => h.step a) acts (RenewalWatch.onTime_start _ _ _)
  have hpassed : w.node.now ≤ w.passed + δ := by
    have hguard (w : RenewalWatch) (a : AnnounceAction) (h : PassesWithin δ w a)
        (_ : w.node.now ≤ w.passed + δ) :
        (renewalStep w a).node.now ≤ (renewalStep w a).passed + δ := h
    exact hpasses.invariant hguard (Nat.le_add_right start δ)
  have hprovided : w.node.ActiveProvided := by
    have hempty : (Announcements.start localPeerId ttlSeconds start).ActiveProvided :=
      fun cid h => absurd h (AList.notMem_empty cid)
    rw [node_run_renewalStep]
    exact run_invariant (fun _ a h => h.step a) acts hempty
  obtain ⟨hlate, t, htried, -, hdue⟩ := hontime.entries cid e he hzero
  have hbound : w.node.now < t + renewalInterval e.ttlMs + δ := by
    calc w.node.now ≤ w.passed + δ := hpassed
      _ < e.nextDue + δ := Nat.add_lt_add_right hlate δ
      _ = t + renewalInterval e.ttlMs + δ := by rw [hdue]
  have hdueIff : e.Due w.node.now ↔ t + renewalInterval e.ttlMs ≤ w.node.now := by
    rw [AnnounceEntry.Due, and_iff_right hzero, hdue]
  refine ⟨t, htried, hdueIff, hbound, fun hδ hlong => ?_, fun hshort hnow => ?_,
    hprovided cid (AList.lookup_isSome.mp (Option.isSome_of_eq_some he))⟩
  · -- A third of the time to live, or two seconds, and half a second are less than all of it.
    have hinterval : max 2000 (e.ttlMs.toNat / 3) + 500 ≤ e.ttlMs.toNat := by omega
    calc w.node.now < t + renewalInterval e.ttlMs + δ := hbound
      _ ≤ t + renewalInterval e.ttlMs + 500 * 10 ^ 6 := Nat.add_le_add_left hδ _
      _ = t + (max 2000 (e.ttlMs.toNat / 3) + 500) * 10 ^ 6 := by
        rw [renewalInterval, Nat.add_mul, Nat.add_assoc]
      _ ≤ t + e.ttl := Nat.add_le_add_left (Nat.mul_le_mul_right _ hinterval) t
  · have hinterval : e.ttlMs.toNat < max 2000 (e.ttlMs.toNat / 3) := by omega
    calc t + e.ttl < t + renewalInterval e.ttlMs :=
          Nat.add_lt_add_left (Nat.mul_lt_mul_of_pos_right hinterval (by decide)) t
      _ ≤ w.node.now := hdueIff.mp hnow

/-- An announcement for three seconds, and passes of the loop for two. -/
def threeSeconds : List AnnounceAction :=
  [.connections ["p"], .announceProvider "k" 3000 (Vector.replicate 3 (.ok ())),
    .elapse (500 * 10 ^ 6), .renewDueProviders fun _ => .ok (),
    .elapse (500 * 10 ^ 6), .renewDueProviders fun _ => .ok (),
    .elapse (500 * 10 ^ 6), .renewDueProviders fun _ => .ok (), .elapse (500 * 10 ^ 6)]

theorem renewals_on_time_threeSeconds :
    let w := run renewalStep (.start "node" 3600 0) threeSeconds
    ∃ t, w.tried "k" = some t ∧ w.node.now < t + 3000 * 10 ^ 6 := by
  intro w
  obtain ⟨t, htried, -, -, hfresh, -⟩ := renewals_on_time "node" 3600 0
    (by decide : Guarded renewalStep (PassesWithin (500 * 10 ^ 6)) _ threeSeconds) "k"
    ⟨3000, 2000 * 10 ^ 6⟩ rfl (by decide)
  exact ⟨t, htried, hfresh le_rfl (by decide)⟩

end Beemesh
