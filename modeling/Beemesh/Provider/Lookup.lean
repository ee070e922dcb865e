import Beemesh.Provider.Manager
import Beemesh.Lib.Run

/-!
# Looking providers up

To find the holders of a manifest a node starts a Kademlia query for the providers of its key and
keeps the sender of the requester under the id of the query. Kademlia then reports providers in
batches, as they come in, until the query ends. The event handler takes the sender out of the table
at the first batch; it has no case for the event that ends a query, unless that is an error.

## Main definitions

* `GetProvidersResult`, `kademliaEvent`: the events of a query and what the handler does with them
* `findManifestHolders`: the control message that starts a query
* `Lookups`, `lookupStep`: the table of senders, and the queries as Kademlia sees them
* `Lookups.Admits`: the events that Kademlia can bring
* `Lookups.Complete`, `ProvidersQuery.FirstBatchSuffices`

## Main results

* `Lookups.Inv.step`: what a query has been answered, from its events alone
* `lookup_complete_iff`: a query is answered in full when its first batch is all it reports
-/

namespace Beemesh

open Run

/-! ## The handler -/

/-- A result of a `GetProviders` query: any number of batches, then one of the others. -/
inductive GetProvidersResult
  | foundProviders (providers : List String)
  | finishedWithNoAdditionalRecord
  | error
  deriving DecidableEq

/-- The key of a query in `PENDING_PROVIDERS_QUERIES`: its id, in debug format. -/
def pendingKey (id : ℕ) : String := "QueryId(" ++ toString id ++ ")"

/-- `PENDING_PROVIDERS_QUERIES`, with the channels of the senders by number, and what has been sent
on each channel. -/
structure PendingProviders where
  pending : Table String ℕ
  sent : ℕ → List (List String)

namespace PendingProviders

/-- `take_pending_providers_query`, and the message for the sender that was there. -/
def reply (s : PendingProviders) (id : ℕ) (providers : List String) : PendingProviders :=
  match s.pending.lookup (pendingKey id) with
  | some tx =>
    { pending := s.pending.erase (pendingKey id)
      sent := Function.update s.sent tx (s.sent tx ++ [providers]) }
  | none => s

/-- `kademlia_event`, on the results of `GetProviders` queries. -/
def kademliaEvent (s : PendingProviders) (id : ℕ) : GetProvidersResult → PendingProviders
  | .foundProviders providers => s.reply id providers
  | .error => s.reply id []
  -- The last arm of the source: the result is logged.
  | .finishedWithNoAdditionalRecord => s

/-- The `FindManifestHolders` message, with the id that `get_providers` returns. -/
def findManifestHolders (s : PendingProviders) (id tx : ℕ) : PendingProviders :=
  { s with pending := s.pending.insert (pendingKey id) tx }

end PendingProviders

/-! ## Queries -/

/-- A query, as Kademlia sees it: its key, whom it is for, and what it has reported. -/
structure ProvidersQuery where
  key : String
  tx : ℕ
  batches : List (List String) := []
  last : Option GetProvidersResult := none

def ProvidersQuery.progress (q : ProvidersQuery) : GetProvidersResult → ProvidersQuery
  | .foundProviders providers => { q with batches := q.batches ++ [providers] }
  | result => { q with last := some result }

structure Lookups where
  node : PendingProviders
  queries : Table ℕ ProvidersQuery

inductive LookupAction
  | findManifestHolders (manifestId : String) (id tx : ℕ)
  | progressed (id : ℕ) (result : GetProvidersResult)

def lookupStep (s : Lookups) : LookupAction → Lookups
  | .findManifestHolders m id tx =>
    { node := s.node.findManifestHolders id tx
      queries := s.queries.insert id { key := providerKey m, tx := tx } }
  | .progressed id result =>
    { node := s.node.kademliaEvent id result
      queries := match s.queries.lookup id with
        | some q => s.queries.insert id (q.progress result)
        | none => s.queries }

/-- A node that has asked for nothing. -/
def Lookups.start : Lookups := ⟨⟨∅, fun _ => []⟩, ∅⟩

namespace Lookups

/-- What can happen: every query has an id of its own, every requester a channel of its own, and a
query makes progress until its last event. -/
def Admits (s : Lookups) : LookupAction → Prop
  | .findManifestHolders _ id tx =>
    id ∉ s.queries ∧ ∀ id' q, s.queries.lookup id' = some q → q.tx ≠ tx
  | .progressed id _ => ∃ q, s.queries.lookup id = some q ∧ q.last = none

/-- The requester of a query has been sent all that the query reported, and nothing is pending for
it. -/
structure Complete (s : Lookups) (id : ℕ) (q : ProvidersQuery) : Prop where
  answered : s.node.sent q.tx ≠ []
  union : ∀ p, p ∈ (s.node.sent q.tx).flatten ↔ p ∈ q.batches.flatten
  settled : pendingKey id ∉ s.node.pending

end Lookups

namespace ProvidersQuery

/-- The first batch holds all that the query reports; or it reports nothing, and ends in an
error. -/
def FirstBatchSuffices (q : ProvidersQuery) : Prop :=
  match q.batches with
  | first :: later => ∀ batch ∈ later, batch ⊆ first
  | [] => q.last = some .error

/-- What the requester of a query has been sent. -/
def replies (q : ProvidersQuery) : List (List String) :=
  match q.batches with
  | first :: _ => [first]
  | [] => if q.last = some .error then [[]] else []

end ProvidersQuery

/-! ## What a requester is sent -/

theorem pendingKey_injective : Function.Injective pendingKey := by
  intro id id' h
  have hlist := congrArg String.toList h
  simp only [pendingKey, String.toList_append, List.append_cancel_right_eq,
    List.append_cancel_left_eq] at hlist
  have hrepr : Nat.repr id = Nat.repr id' := String.toList_inj.mp hlist
  rw [Nat.repr_eq_ofList_toDigits, Nat.repr_eq_ofList_toDigits, String.ofList_inj] at hrepr
  simpa only [Nat.ofDigitChars_ten_toDigits] using
    congrArg (fun digits => Nat.ofDigitChars 10 digits 0) hrepr

/-- The message that a result makes the handler send to a sender that is pending. -/
def GetProvidersResult.answer : GetProvidersResult → Option (List String)
  | .foundProviders providers => some providers
  | .error => some []
  | .finishedWithNoAdditionalRecord => none

namespace ProvidersQuery

/-- Only the first result with an answer is answered. -/
theorem replies_progress {q : ProvidersQuery} (hq : q.last = none) (result : GetProvidersResult) :
    (q.progress result).replies = if q.replies = [] then result.answer.toList else q.replies := by
  unfold replies
  cases hbatches : q.batches with
  | nil =>
    cases result <;> simp [progress, hbatches, hq, GetProvidersResult.answer]
  | cons first later =>
    cases result <;> simp [progress, hbatches]

end ProvidersQuery

namespace PendingProviders

variable {s : PendingProviders} {id tx : ℕ}

/-- An answer that comes to a sender that is pending is sent, and the sender goes. -/
theorem kademliaEvent_of_pending (h : s.pending.lookup (pendingKey id) = some tx)
    {result : GetProvidersResult} {providers : List String}
    (hanswer : result.answer = some providers) :
    s.kademliaEvent id result =
      { pending := s.pending.erase (pendingKey id)
        sent := Function.update s.sent tx (s.sent tx ++ [providers]) } := by
  cases result <;> cases hanswer <;> simp [kademliaEvent, reply, h]

/-- Nothing happens where no sender is pending, or at a result without an answer. -/
theorem kademliaEvent_eq_self {result : GetProvidersResult}
    (h : s.pending.lookup (pendingKey id) = none ∨ result.answer = none) :
    s.kademliaEvent id result = s := by
  rcases h with h | h
  · cases result <;> simp [kademliaEvent, reply, h]
  · cases result <;> first | rfl | cases h

/-- The handler, where a sender is pending exactly while nothing has been sent to it. -/
theorem kademliaEvent_spec {replies : List (List String)} (hsent : s.sent tx = replies)
    (hpending : s.pending.lookup (pendingKey id) = if replies = [] then some tx else none)
    (result : GetProvidersResult) :
    let replies' := if replies = [] then result.answer.toList else replies
    (s.kademliaEvent id result).sent = Function.update s.sent tx replies' ∧
      (s.kademliaEvent id result).pending.lookup (pendingKey id) =
        (if replies' = [] then some tx else none) ∧
      ∀ key, key ≠ pendingKey id →
        (s.kademliaEvent id result).pending.lookup key = s.pending.lookup key := by
  intro replies'
  by_cases hreplies : replies = []
  · rw [if_pos hreplies] at hpending
    have hreplies' : replies' = result.answer.toList := if_pos hreplies
    cases hanswer : result.answer with
    | some providers =>
      rw [kademliaEvent_of_pending hpending hanswer, hreplies', hanswer, hsent, hreplies]
      exact ⟨rfl, AList.lookup_erase _ _, fun key hkey => AList.lookup_erase_ne hkey⟩
    | none =>
      rw [kademliaEvent_eq_self (.inr hanswer), hreplies', hanswer, hpending]
      rw [hreplies] at hsent
      exact ⟨(Function.update_eq_self_iff.mpr hsent.symm).symm, rfl, fun _ _ => rfl⟩
  · rw [if_neg hreplies] at hpending
    have hreplies' : replies' = replies := if_neg hreplies
    rw [kademliaEvent_eq_self (.inl hpending), hreplies', hpending, if_neg hreplies, ← hsent]
    exact ⟨(Function.update_eq_self _ _).symm, rfl, fun _ _ => rfl⟩

end PendingProviders

namespace Lookups

/-- What has been sent for a query and what is pending for it, from its events alone. -/
structure Inv (s : Lookups) : Prop where
  channels : ∀ id q id' q', s.queries.lookup id = some q → s.queries.lookup id' = some q' →
    q.tx = q'.tx → id = id'
  sent : ∀ id q, s.queries.lookup id = some q → s.node.sent q.tx = q.replies
  pending : ∀ id q, s.queries.lookup id = some q →
    s.node.pending.lookup (pendingKey id) = if q.replies = [] then some q.tx else none
  silent : ∀ tx, (∀ id q, s.queries.lookup id = some q → q.tx ≠ tx) → s.node.sent tx = []

theorem inv_start : start.Inv where
  channels _ _ _ _ hid := by simp [start] at hid
  sent _ _ hid := by simp [start] at hid
  pending _ _ hid := by simp [start] at hid
  silent _ _ := rfl

theorem Inv.findManifestHolders {s : Lookups} (hs : s.Inv) {m : String} {id tx : ℕ}
    (h : s.Admits (.findManifestHolders m id tx)) :
    (lookupStep s (.findManifestHolders m id tx)).Inv := by
  obtain ⟨hid, htx⟩ := h
  -- A lookup after the step finds the new query, or an old one under another id and channel.
  have hcases {k : ℕ} {q : ProvidersQuery}
      (h : (lookupStep s (.findManifestHolders m id tx)).queries.lookup k = some q) :
      (k = id ∧ q = { key := providerKey m, tx := tx }) ∨ k ≠ id ∧ s.queries.lookup k = some q := by
    rcases eq_or_ne k id with rfl | hne
    · exact .inl ⟨rfl, Option.some.inj ((AList.lookup_insert _).symm.trans h).symm⟩
    · exact .inr ⟨hne, (AList.lookup_insert_ne hne).symm.trans h⟩
  constructor
  · intro k q k' q' hk hk' heq
    rcases hcases hk with ⟨rfl, rfl⟩ | ⟨-, hold⟩ <;>
      rcases hcases hk' with ⟨rfl, rfl⟩ | ⟨-, hold'⟩
    · rfl
    · exact absurd heq.symm (htx k' q' hold')
    · exact absurd heq (htx k q hold)
    · exact hs.channels k q k' q' hold hold' heq
  · intro k q hk
    rcases hcases hk with ⟨rfl, rfl⟩ | ⟨-, hold⟩
    · exact hs.silent tx htx
    · exact hs.sent k q hold
  · intro k q hk
    rcases hcases hk with ⟨rfl, rfl⟩ | ⟨hne, hold⟩
    · exact AList.lookup_insert _
    · exact (AList.lookup_insert_ne (pendingKey_injective.ne hne)).trans (hs.pending k q hold)
  · intro tx' hunused
    refine hs.silent tx' fun k q hk => ?_
    have hne : k ≠ id := by
      rintro rfl
      exact hid (AList.lookup_isSome.mp (Option.isSome_iff_exists.mpr ⟨q, hk⟩))
    exact hunused k q ((AList.lookup_insert_ne hne).trans hk)

theorem Inv.progressed {s : Lookups} (hs : s.Inv) {id : ℕ} {result : GetProvidersResult}
    (h : s.Admits (.progressed id result)) : (lookupStep s (.progressed id result)).Inv := by
  obtain ⟨q, hid, hlast⟩ := h
  have hqueries : (lookupStep s (.progressed id result)).queries =
      s.queries.insert id (q.progress result) := by
    simp only [lookupStep, hid]
  have htx : (q.progress result).tx = q.tx := by
    cases result <;> rfl
  have hcases {k : ℕ} {q' : ProvidersQuery}
      (h : (lookupStep s (.progressed id result)).queries.lookup k = some q') :
      (k = id ∧ q' = q.progress result) ∨ k ≠ id ∧ s.queries.lookup k = some q' := by
    rw [hqueries] at h
    rcases eq_or_ne k id with rfl | hne
    · exact .inl ⟨rfl, Option.some.inj ((AList.lookup_insert _).symm.trans h).symm⟩
    · exact .inr ⟨hne, (AList.lookup_insert_ne hne).symm.trans h⟩
  obtain ⟨hsent, hpending, hothers⟩ := PendingProviders.kademliaEvent_spec (hs.sent id q hid)
    (hs.pending id q hid) result
  rw [← ProvidersQuery.replies_progress hlast] at hsent hpending
  -- Another query has another channel.
  have hother {k : ℕ} {q' : ProvidersQuery} (hne : k ≠ id) (hk : s.queries.lookup k = some q') :
      q'.tx ≠ q.tx := fun heq => hne (hs.channels k q' id q hk hid heq)
  constructor
  · intro k q₁ k' q₂ hk hk' heq
    rcases hcases hk with ⟨rfl, rfl⟩ | ⟨hne, hold⟩ <;>
      rcases hcases hk' with ⟨rfl, rfl⟩ | ⟨hne', hold'⟩
    · rfl
    · exact absurd (heq.symm.trans htx) (hother hne' hold')
    · exact absurd (heq.trans htx) (hother hne hold)
    · exact hs.channels k q₁ k' q₂ hold hold' heq
  · intro k q' hk
    change (s.node.kademliaEvent id result).sent q'.tx = _
    rw [hsent]
    rcases hcases hk with ⟨rfl, rfl⟩ | ⟨hne, hold⟩
    · rw [htx, Function.update_self]
    · rw [Function.update_of_ne (hother hne hold), hs.sent k q' hold]
  · intro k q' hk
    change (s.node.kademliaEvent id result).pending.lookup (pendingKey k) = _
    rcases hcases hk with ⟨rfl, rfl⟩ | ⟨hne, hold⟩
    · rw [hpending, htx]
    · rw [hothers _ (pendingKey_injective.ne hne), hs.pending k q' hold]
  · intro tx hunused
    change (s.node.kademliaEvent id result).sent tx = []
    have hne : tx ≠ q.tx := by
      rintro rfl
      exact hunused id (q.progress result) (by rw [hqueries, AList.lookup_insert]) htx
    rw [hsent, Function.update_of_ne hne]
    refine hs.silent tx fun k q' hk => ?_
    rcases eq_or_ne k id with rfl | hkid
    · exact Option.some.inj (hid.symm.trans hk) ▸ hne.symm
    · exact hunused k q' (by rw [hqueries, AList.lookup_insert_ne hkid, hk])

theorem Inv.step {s : Lookups} {a : LookupAction} (ha : s.Admits a) (hs : s.Inv) :
    (lookupStep s a).Inv := by
  cases a with
  | findManifestHolders m id tx => exact hs.findManifestHolders ha
  | progressed id result => exact hs.progressed ha

/-- What is complete, from the events of the query alone. -/
theorem Inv.complete_iff {s : Lookups} (hs : s.Inv) {id : ℕ} {q : ProvidersQuery}
    (hid : s.queries.lookup id = some q) : s.Complete id q ↔ q.FirstBatchSuffices := by
  have hsent := hs.sent id q hid
  have hpending := hs.pending id q hid
  have hsettled : pendingKey id ∉ s.node.pending ↔ q.replies ≠ [] := by
    rw [← AList.lookup_eq_none, hpending]
    split_ifs with h <;> simp [h]
  have hcomplete : s.Complete id q ↔
      q.replies ≠ [] ∧ ∀ p, p ∈ q.replies.flatten ↔ p ∈ q.batches.flatten := by
    refine ⟨fun h => ⟨hsent ▸ h.answered, hsent ▸ h.union⟩, fun h => ⟨?_, ?_, hsettled.mpr h.1⟩⟩
    · rw [hsent]
      exact h.1
    · rw [hsent]
      exact h.2
  rw [hcomplete, ProvidersQuery.FirstBatchSuffices, ProvidersQuery.replies]
  cases hbatches : q.batches with
  | nil => split_ifs with h <;> simp [h]
  | cons first later =>
    simp only [ne_eq, List.cons_ne_nil, not_false_eq_true, true_and, List.flatten_cons,
      List.flatten_nil, List.append_nil, List.mem_append, List.mem_flatten]
    constructor
    · intro h batch hbatch p hp
      exact (h p).mpr (.inr ⟨batch, hbatch, hp⟩)
    · intro h p
      refine ⟨.inl, fun hp => hp.elim (fun hfirst => hfirst) ?_⟩
      rintro ⟨batch, hbatch, hp⟩
      exact h batch hbatch hp

end Lookups

/-- **A query is answered in full when its first batch is all it reports**: at every point of every
interleaving, a query's requester has been sent all that has been reported for it, and nothing is
pending for it, exactly when the first batch holds every provider reported, or nothing was reported
and the query ended in an error. -/
theorem lookup_complete_iff {acts : List LookupAction}
    (hacts : Guarded lookupStep Lookups.Admits .start acts) {id : ℕ} {q : ProvidersQuery}
    (hq : (run lookupStep .start acts).queries.lookup id = some q) :
    (run lookupStep .start acts).Complete id q ↔ q.FirstBatchSuffices := by
  have hinv : (run lookupStep .start acts).Inv :=
    hacts.invariant (fun s a ha hs => Lookups.Inv.step ha hs) Lookups.inv_start
  exact hinv.complete_iff hq

/-! ## Two queries -/

/-- The batches of a query, and its last event. -/
def reports (batches : List (List String)) (last : GetProvidersResult) : List LookupAction :=
  batches.map (fun batch => .progressed 0 (.foundProviders batch)) ++ [.progressed 0 last]

/-- A query for the manifest `m`, from its start to its end. -/
def lookupOf (batches : List (List String)) (last : GetProvidersResult) : List LookupAction :=
  .findManifestHolders "m" 0 0 :: reports batches last

/-- The events of a query that goes on, which Kademlia can bring when only the last one ends it. -/
theorem guarded_reports (last : GetProvidersResult)
    (hlast : ∀ q : ProvidersQuery, q.progress last = { q with last := some last })
    (batches : List (List String)) {s : Lookups} {q : ProvidersQuery}
    (hs : s.queries.lookup 0 = some q) (hq : q.last = none) :
    Guarded lookupStep Lookups.Admits s (reports batches last) ∧
      (run lookupStep s (reports batches last)).queries.lookup 0 =
        some { q with batches := q.batches ++ batches, last := some last } := by
  induction batches generalizing s q with
  | nil =>
    refine ⟨⟨⟨q, hs, hq⟩, trivial⟩, ?_⟩
    simp only [reports, List.map_nil, List.nil_append, run_cons, run_nil, lookupStep, hs,
      AList.lookup_insert, List.append_nil, hlast]
  | cons batch batches ih =>
    have hnext : (lookupStep s (.progressed 0 (.foundProviders batch))).queries.lookup 0 =
        some { q with batches := q.batches ++ [batch] } := by
      simp only [lookupStep, hs, AList.lookup_insert, ProvidersQuery.progress]
    obtain ⟨hguarded, hquery⟩ := ih hnext hq
    refine ⟨⟨⟨q, hs, hq⟩, hguarded⟩, ?_⟩
    rw [List.append_assoc, List.singleton_append] at hquery
    exact hquery

theorem guarded_lookupOf (batches : List (List String)) :
    Guarded lookupStep Lookups.Admits .start (lookupOf batches .finishedWithNoAdditionalRecord) ∧
      (run lookupStep .start (lookupOf batches .finishedWithNoAdditionalRecord)).queries.lookup 0 =
        some ⟨"provider:m", 0, batches, some .finishedWithNoAdditionalRecord⟩ := by
  obtain ⟨hguarded, hquery⟩ := guarded_reports .finishedWithNoAdditionalRecord (fun _ => rfl)
    batches (s := lookupStep .start (.findManifestHolders "m" 0 0)) rfl rfl
  exact ⟨⟨⟨AList.notMem_empty _, fun _ _ h => by simp [Lookups.start] at h⟩, hguarded⟩, hquery⟩

/-- One batch, and then the end: the query is answered in full. -/
theorem lookup_complete_one_batch :
    (run lookupStep .start (lookupOf [["a", "b"]] .finishedWithNoAdditionalRecord)).Complete 0
      ⟨"provider:m", 0, [["a", "b"]], some .finishedWithNoAdditionalRecord⟩ := by
  obtain ⟨hguarded, hquery⟩ := guarded_lookupOf [["a", "b"]]
  refine (lookup_complete_iff hguarded hquery).mpr fun batch hbatch => ?_
  exact absurd hbatch List.not_mem_nil

/-- Two batches, and then the end: the second is lost. No batch, and then the end: nothing is
answered, and the sender stays in the table. -/
theorem second_batch_lost :
    let twoBatches := lookupOf [["a"], ["b"]] .finishedWithNoAdditionalRecord
    let noBatch := lookupOf [] .finishedWithNoAdditionalRecord
    Guarded lookupStep Lookups.Admits .start twoBatches ∧
      Guarded lookupStep Lookups.Admits .start noBatch ∧
      (run lookupStep .start twoBatches).node.sent 0 = [["a"]] ∧
      ¬ (run lookupStep .start twoBatches).Complete 0
        ⟨"provider:m", 0, [["a"], ["b"]], some .finishedWithNoAdditionalRecord⟩ ∧
      (run lookupStep .start noBatch).node.sent 0 = [] ∧
      pendingKey 0 ∈ (run lookupStep .start noBatch).node.pending ∧
      ¬ (run lookupStep .start noBatch).Complete 0
        ⟨"provider:m", 0, [], some .finishedWithNoAdditionalRecord⟩ := by
  intro twoBatches noBatch
  have hsent : (run lookupStep .start twoBatches).node.sent 0 = [["a"]] := by decide
  refine ⟨(guarded_lookupOf [["a"], ["b"]]).1, (guarded_lookupOf []).1, hsent, fun h => ?_, rfl,
    by decide, fun h => h.answered rfl⟩
  have hb := (h.union "b").mpr (by decide)
  rw [hsent] at hb
  revert hb
  decide

end Beemesh
