import Beemesh.Basic
import Beemesh.Lib.Table

/-!
# The nonce store

The process-wide store of `flatbuffer_envelope.rs` behind replay protection: for each peer the
nonces it presented and when. A check prunes the entries of its peer that are older than the
window, refuses a nonce that is still there, and records the nonce otherwise.

## Main definitions

* `NonceStore`, `checkAndInsertNonceForPeer`
* `NonceStore.seenAt`: when a peer presented a nonce
* `NonceStore.Live`: the nonce is within the window

## Main results

* `checkAndInsertNonceForPeer_ok_iff`: a nonce passes unless it is empty or live
* `seenAt_checkAndInsertNonceForPeer`: what a check leaves in the store
* `live_checkAndInsertNonceForPeer`: what is live after a check, at any later time
-/

namespace Beemesh

/-- The nonces of each peer, with the time they were recorded. -/
abbrev NonceStore := Table String (Table String Instant)

/-- The store of one peer, created if need be, with its old nonces pruned. -/
def prunedPeerStore (store : NonceStore) (now : Instant) (nonceWindow : Duration)
    (peerId : String) : Table String Instant :=
  ((store.lookup peerId).getD ∅).retain fun _ t => now - t ≤ nonceWindow

/-- `check_and_insert_nonce_for_peer`, at its clock reading. The entry of the peer is created and
pruned also when the nonce is refused. -/
def checkAndInsertNonceForPeer (store : NonceStore) (now : Instant) (nonce : String)
    (nonceWindow : Duration) (peerId : String) : Except AnyhowError Unit × NonceStore :=
  if nonce = "" then (.error ["nonce cannot be empty"], store)
  else
    let peerStore := prunedPeerStore store now nonceWindow peerId
    -- A refused nonce keeps the time it was first seen at.
    if nonce ∈ peerStore then
      (.error ["replay detected: nonce already seen"], store.insert peerId peerStore)
    else (.ok (), store.insert peerId (peerStore.insert nonce now))

namespace NonceStore

/-- When `peer` presented `nonce`, if the store still has it. -/
def seenAt (store : NonceStore) (peer nonce : String) : Option Instant :=
  (store.lookup peer).bind fun peerStore => peerStore.lookup nonce

/-- The nonce of the peer is within the window at `now`. -/
def Live (store : NonceStore) (now : Instant) (window : Duration) (peer nonce : String) : Prop :=
  ∃ t ∈ store.seenAt peer nonce, now - t ≤ window

instance (store : NonceStore) (now : Instant) (window : Duration) (peer nonce : String) :
    Decidable (store.Live now window peer nonce) :=
  match h : store.seenAt peer nonce with
  | none => .isFalse (by simp [Live, h])
  | some t => decidable_of_iff (now - t ≤ window) (by simp [Live, h])

/-- A store without nonces has none that are live. -/
theorem not_live_empty (now : Instant) (window : Duration) (peer nonce : String) :
    ¬ (∅ : NonceStore).Live now window peer nonce := by
  rintro ⟨t, ht, -⟩
  simp [seenAt] at ht

end NonceStore

variable {store : NonceStore} {now : Instant} {nonce : String} {window : Duration} {peer : String}

theorem lookup_prunedPeerStore (store : NonceStore) (now : Instant) (window : Duration)
    (peer nonce : String) :
    (prunedPeerStore store now window peer).lookup nonce =
      (store.seenAt peer nonce).filter (now - · ≤ window) := by
  rw [prunedPeerStore, AList.lookup_retain, NonceStore.seenAt]
  cases store.lookup peer <;> rfl

theorem mem_prunedPeerStore_iff :
    nonce ∈ prunedPeerStore store now window peer ↔ store.Live now window peer nonce := by
  rw [← AList.lookup_isSome, lookup_prunedPeerStore, Option.isSome_iff_exists]
  simp only [Option.filter_eq_some_iff, decide_eq_true_eq]
  rfl

/-- A nonce passes unless it is empty or live. -/
theorem checkAndInsertNonceForPeer_ok_iff :
    (checkAndInsertNonceForPeer store now nonce window peer).1 = .ok () ↔
      nonce ≠ "" ∧ ¬ store.Live now window peer nonce := by
  rw [checkAndInsertNonceForPeer]
  by_cases hempty : nonce = ""
  · simp [hempty]
  · by_cases hlive : store.Live now window peer nonce
    · simp [hempty, mem_prunedPeerStore_iff, hlive]
    · simp [hempty, mem_prunedPeerStore_iff, hlive]

/-- What a check leaves: other peers as they were, the nonce it let pass at the present, and of the
peer's other nonces those within the window. -/
theorem seenAt_checkAndInsertNonceForPeer (hne : nonce ≠ "") (peer' nonce' : String) :
    (checkAndInsertNonceForPeer store now nonce window peer).2.seenAt peer' nonce' =
      if peer' ≠ peer then store.seenAt peer' nonce'
      else if nonce' = nonce ∧ ¬ store.Live now window peer nonce then some now
      else (store.seenAt peer' nonce').filter (now - · ≤ window) := by
  rw [checkAndInsertNonceForPeer, if_neg hne]
  simp only [mem_prunedPeerStore_iff]
  -- Other peers have stores of their own.
  by_cases hpeer : peer' = peer
  · subst hpeer
    rw [if_neg (not_not_intro rfl), ← lookup_prunedPeerStore]
    by_cases hlive : store.Live now window peer' nonce
    · simp [hlive, NonceStore.seenAt]
    · by_cases hnonce : nonce' = nonce
      · subst hnonce
        simp [hlive, NonceStore.seenAt]
      · simp [hlive, hnonce, NonceStore.seenAt, AList.lookup_insert_ne hnonce]
  · rw [if_pos hpeer]
    split_ifs <;> rw [NonceStore.seenAt, AList.lookup_insert_ne hpeer, NonceStore.seenAt]

/-- What is not live stays so until it is recorded anew. -/
theorem NonceStore.Live.earlier {now' : Instant} (hle : now ≤ now')
    (h : store.Live now' window peer nonce) : store.Live now window peer nonce := by
  obtain ⟨t, ht, hwin⟩ := h
  exact ⟨t, ht, (Nat.sub_le_sub_right hle t).trans hwin⟩

/-- **What is live after a check**: at any later time, what was live without it, and the nonce it
let pass for as long as the window. -/
theorem live_checkAndInsertNonceForPeer (hne : nonce ≠ "") {now' : Instant} (hle : now ≤ now')
    (peer' nonce' : String) :
    (checkAndInsertNonceForPeer store now nonce window peer).2.Live now' window peer' nonce' ↔
      store.Live now' window peer' nonce' ∨
        (peer' = peer ∧ nonce' = nonce ∧ ¬ store.Live now window peer nonce ∧
          now' - now ≤ window) := by
  rw [NonceStore.Live, seenAt_checkAndInsertNonceForPeer hne]
  split_ifs with hpeer hnew
  · exact ⟨.inl, fun h => h.resolve_right fun h => hpeer h.1⟩
  · obtain ⟨rfl, hlive⟩ := hnew
    obtain rfl : peer' = peer := not_not.mp hpeer
    have hlater : ¬ store.Live now' window peer' nonce' := fun h => hlive (h.earlier hle)
    simp [hlater, hlive]
  -- An entry that was kept: pruning at `now` drops nothing still live at `now'`.
  · obtain rfl : peer' = peer := not_not.mp hpeer
    have hold : ¬ (nonce' = nonce ∧ ¬ store.Live now window peer' nonce ∧ now' - now ≤ window) :=
      fun ⟨hnonce, hlive, _⟩ => hnew ⟨hnonce, hlive⟩
    simp only [hold, and_false, or_false]
    constructor
    · rintro ⟨t, ht, hwin⟩
      exact ⟨t, (Option.filter_eq_some_iff.mp ht).1, hwin⟩
    · rintro ⟨t, ht, hwin⟩
      have hkept : now - t ≤ window := (Nat.sub_le_sub_right hle t).trans hwin
      exact ⟨t, Option.filter_eq_some_iff.mpr ⟨ht, decide_eq_true hkept⟩, hwin⟩

end Beemesh
