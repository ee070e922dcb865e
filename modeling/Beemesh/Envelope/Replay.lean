import Beemesh.Envelope.Verify
import Beemesh.Lib.Run

/-!
# Replay protection

Runs of the verifier over one nonce store, with any envelopes of any peers in any order. An
envelope with a nonce is accepted once for a peer within the window; an envelope without one has no
protection. The nonce is recorded before the signature is checked, so a forged envelope can use up
the nonce of an honest one. A second verifier leaves the replay check out; it rebuilds the signed
bytes without the KEM key and the peer.

## Main definitions

* `ReplayState`, `Presentation`, `present`: envelopes presented one after the other
* `Passes`: the store lets a nonce pass
* `verifyFlatbufferEnvelopeSkipNonceCheck`: the verifier without the replay check

## Main results

* `live_verify`: what is live after a verification
* `replay_rejected`: within the window an accepted envelope with a nonce is not accepted again
* `verify_keeps_passes_iff`: when an envelope, accepted or rejected, uses up no nonce
* `skipNonceCheck_agrees_iff`: when the two verifiers agree
-/

namespace Beemesh

section Live

variable {P : Platform} {store : NonceStore} {now : Instant} {window : Duration} {peer : String}

/-- **What is live after a verification**, accepted or not: what was, and the nonce that was
checked. -/
theorem live_verify {bytes : Bytes} {now' : Instant} (hle : now ≤ now') (peer' nonce' : String) :
    (P.verifyFlatbufferEnvelopeForPeer store now bytes window peer).2.Live now' window peer'
        nonce' ↔
      store.Live now' window peer' nonce' ∨
        ∃ o, P.openEnvelope bytes = .ok o ∧ o.nonce ≠ "" ∧ peer' = peer ∧ nonce' = o.nonce ∧
          ¬ store.Live now window peer o.nonce ∧ now' - now ≤ window := by
  rw [verify_snd]
  cases P.openEnvelope bytes with
  | error e => simp
  | ok o =>
    simp only [Except.ok.injEq, exists_eq_left']
    exact live_checkNonce hle peer' nonce'

/-- What is live stays live through a verification. -/
theorem NonceStore.Live.verify {bytes : Bytes} {now' : Instant} (hle : now ≤ now')
    {peer' nonce' : String} (h : store.Live now' window peer' nonce') :
    (P.verifyFlatbufferEnvelopeForPeer store now bytes window peer).2.Live now' window peer'
      nonce' :=
  (live_verify hle peer' nonce').mpr (.inl h)

end Live

/-! ## Runs -/

/-- The nonce store and the time. -/
structure ReplayState where
  store : NonceStore
  now : Instant

/-- Time passes, then `peer` presents `bytes`. -/
structure Presentation where
  advance : Duration
  bytes : Bytes
  peer : String

variable (P : Platform) (window : Duration)

/-- The verifier on a presentation. -/
def verifyPresentation (s : ReplayState) (a : Presentation) :
    Except AnyhowError VerifiedEnvelopeParts × NonceStore :=
  P.verifyFlatbufferEnvelopeForPeer s.store (s.now + a.advance) a.bytes window a.peer

def present (s : ReplayState) (a : Presentation) : ReplayState :=
  ⟨(verifyPresentation P window s a).2, s.now + a.advance⟩

/-- The nonce is live from `s` on, up to `deadline`. -/
def LiveUntil (peer nonce : String) (deadline : Instant) (s : ReplayState) : Prop :=
  ∀ now', s.now ≤ now' → now' ≤ deadline → s.store.Live now' window peer nonce

variable {P window}

/-- A nonce stays live through a verification, whenever between the two times it is made. -/
theorem LiveUntil.verify {store : NonceStore} {now t now' : Instant} {peer nonce : String}
    {deadline : Instant} (h : LiveUntil window peer nonce deadline ⟨store, now⟩) (hle : now ≤ t)
    (hle' : t ≤ now') (bytes : Bytes) (peer' : String) :
    LiveUntil window peer nonce deadline
      ⟨(P.verifyFlatbufferEnvelopeForPeer store t bytes window peer').2, now'⟩ := by
  intro later hlater huntil
  have hbefore : store.Live later window peer nonce :=
    h later (hle.trans (hle'.trans hlater)) huntil
  exact hbefore.verify (hle'.trans hlater)

/-- An accepted envelope with a nonce makes it live for the whole window. -/
theorem liveUntil_of_accepted {store : NonceStore} {t now' : Instant} {bytes : Bytes}
    {peer : String} {parts : VerifiedEnvelopeParts} {e : Envelope}
    (hok : (P.verifyFlatbufferEnvelopeForPeer store t bytes window peer).1 = .ok parts)
    (he : P.rootAsEnvelope bytes = .ok e) (hnonce : e.content.nonce ≠ "") (hle : t ≤ now') :
    LiveUntil window peer e.content.nonce (t + window)
      ⟨(P.verifyFlatbufferEnvelopeForPeer store t bytes window peer).2, now'⟩ := by
  obtain ⟨o, hopen, hpass, -, -⟩ := verify_ok_iff.mp hok
  obtain rfl : o.envelope = e := Except.ok.inj ((openEnvelope_ok_iff.mp hopen).1.symm.trans he)
  intro later hlater huntil
  -- It was not live, so the check recorded it at `t`.
  have hfresh : ¬ store.Live t window peer o.nonce := hpass.resolve_left hnonce
  refine (live_verify (hle.trans hlater) peer o.nonce).mpr (.inr ?_)
  exact ⟨o, hopen, hnonce, rfl, rfl, hfresh, Nat.sub_le_iff_le_add'.mpr huntil⟩

/-- A nonce that is live is not accepted. -/
theorem not_accepted_of_live {store : NonceStore} {now : Instant} {bytes : Bytes} {peer : String}
    {e : Envelope} (he : P.rootAsEnvelope bytes = .ok e) (hnonce : e.content.nonce ≠ "")
    (hlive : store.Live now window peer e.content.nonce) (parts : VerifiedEnvelopeParts) :
    (P.verifyFlatbufferEnvelopeForPeer store now bytes window peer).1 ≠ .ok parts := by
  intro hok
  obtain ⟨o, hopen, hpass, -, -⟩ := verify_ok_iff.mp hok
  obtain rfl : o.envelope = e := Except.ok.inj ((openEnvelope_ok_iff.mp hopen).1.symm.trans he)
  exact hpass.resolve_left hnonce hlive

/-- **No replay within the window**: once an envelope with a nonce is accepted for a peer, whatever
is presented by whomever in between, presenting it again for that peer within the window is
refused. -/
theorem replay_rejected (s : ReplayState) (first again : Presentation)
    {parts : VerifiedEnvelopeParts}
    (haccepted : (verifyPresentation P window s first).1 = .ok parts)
    (hnonce : ∀ e, P.rootAsEnvelope first.bytes = .ok e → e.content.nonce ≠ "")
    (between : List Presentation) (hbytes : again.bytes = first.bytes)
    (hpeer : again.peer = first.peer)
    (hwindow : (Run.run (present P window) (present P window s first) between).now +
      again.advance ≤ s.now + first.advance + window) :
    ∃ err, (verifyPresentation P window
      (Run.run (present P window) (present P window s first) between) again).1 = .error err := by
  obtain ⟨o, hopen, -⟩ := verify_ok_iff.mp haccepted
  have he : P.rootAsEnvelope first.bytes = .ok o.envelope := (openEnvelope_ok_iff.mp hopen).1
  have hne := hnonce _ he
  -- The nonce is live from the acceptance on, and whatever comes in between leaves it so.
  have hinit : LiveUntil window first.peer o.envelope.content.nonce
      (s.now + first.advance + window) (present P window s first) :=
    liveUntil_of_accepted haccepted he hne le_rfl
  have hstep (s' : ReplayState) (a : Presentation)
      (hs' : LiveUntil window first.peer o.envelope.content.nonce
        (s.now + first.advance + window) s') :
      LiveUntil window first.peer o.envelope.content.nonce (s.now + first.advance + window)
        (present P window s' a) :=
    hs'.verify (Nat.le_add_right _ a.advance) le_rfl a.bytes a.peer
  have hlive := Run.run_invariant hstep between hinit
  cases hagain : (verifyPresentation P window
      (Run.run (present P window) (present P window s first) between) again).1 with
  | error err => exact ⟨err, rfl⟩
  | ok parts' =>
    rw [verifyPresentation, hbytes, hpeer] at hagain
    exact absurd hagain
      (not_accepted_of_live he hne (hlive _ (Nat.le_add_right _ _) hwindow) parts')

/-- An envelope with a nonce, accepted for `p`, while another peer presents it in between. -/
theorem replay_rejected_reference :
    let c : Content := ⟨[1], "apply", "n", 5, "ml-dsa-65", "", ""⟩
    let P := referencePlatform fun k _ => k == [7]
    let first : Presentation := ⟨0, c.bytes [7] c.canonicalBytes, "p"⟩
    let between : List Presentation := [{ first with advance := 1, peer := "q" }]
    let s := present P 300 ⟨∅, 0⟩ first
    (∃ parts, (verifyPresentation P 300 ⟨∅, 0⟩ first).1 = .ok parts) ∧
      ∃ err, (verifyPresentation P 300 (Run.run (present P 300) s between)
        { first with advance := 299 }).1 = .error err := by
  intro c P first between s
  have hok : (verifyPresentation P 300 ⟨∅, 0⟩ first).1 =
      .ok ⟨[1], [7], c.canonicalBytes, 5, "apply"⟩ :=
    (verify_bytes_ok_iff _ c [7] c.canonicalBytes ∅ 0 300 "p" _).mpr
      ⟨.inr (by decide), rfl, rfl, rfl⟩
  refine ⟨⟨_, hok⟩, replay_rejected ⟨∅, 0⟩ first _ hok (fun e he => ?_) between rfl rfl le_rfl⟩
  obtain rfl : c.envelope [7] c.canonicalBytes = e :=
    Except.ok.inj ((referencePlatform_envelopeRoundTrip _ _).symm.trans he)
  decide

/-- Without a nonce the same envelope is accepted twice at once. -/
theorem replay_accepted_without_nonce :
    let c : Content := ⟨[1], "apply", "", 5, "ml-dsa-65", "", ""⟩
    let P := referencePlatform fun k _ => k == [7]
    let a : Presentation := ⟨0, c.bytes [7] c.canonicalBytes, "p"⟩
    let s : ReplayState := ⟨∅, 0⟩
    ∃ parts, (verifyPresentation P 300 s a).1 = .ok parts ∧
      (verifyPresentation P 300 (present P 300 s a) a).1 = .ok parts := by
  intro c P a s
  have hok (store : NonceStore) : (P.verifyFlatbufferEnvelopeForPeer store 0 a.bytes 300 "p").1 =
      .ok ⟨[1], [7], c.canonicalBytes, 5, "apply"⟩ :=
    (verify_bytes_ok_iff _ c [7] c.canonicalBytes store 0 300 "p" _).mpr ⟨.inl rfl, rfl, rfl, rfl⟩
  exact ⟨_, hok _, hok _⟩

/-! ## What a rejection leaves -/

/-- The store lets the nonce of the peer pass. -/
def Passes (store : NonceStore) (now : Instant) (window : Duration) (peer nonce : String) : Prop :=
  (checkAndInsertNonceForPeer store now nonce window peer).1 = .ok ()

/-- **When an envelope uses up no nonce**, rejected or not: at all later times the same nonces pass
for the peer as if it had not come, exactly when it does not parse or decode, or its nonce is empty,
or was live already. The signature plays no part in it. -/
theorem verify_keeps_passes_iff (P : Platform) (store : NonceStore) (now : Instant)
    (bytes : Bytes) (window : Duration) (peer : String) :
    (∀ now' ≥ now, ∀ nonce,
      Passes (P.verifyFlatbufferEnvelopeForPeer store now bytes window peer).2 now' window peer
        nonce ↔ Passes store now' window peer nonce) ↔
      ∀ e sig pub, P.rootAsEnvelope bytes = .ok e →
        P.normalizeAndDecodeSignature (some (e.sig.getD "")) = .ok sig →
        P.base64Decode (e.pubkey.getD "") = .ok pub →
          e.content.nonce = "" ∨ store.Live now window peer e.content.nonce := by
  simp only [Passes, checkAndInsertNonceForPeer_ok_iff]
  constructor
  · intro h e sig pub he hsig hpub
    have hopen : P.openEnvelope bytes = .ok ⟨e, sig, pub⟩ :=
      openEnvelope_ok_iff.mpr ⟨he, hsig, hpub⟩
    by_contra hfresh
    obtain ⟨hne, hlive⟩ := not_or.mp hfresh
    -- The nonce passed before, and is live now.
    refine ((h now le_rfl e.content.nonce).mpr ⟨hne, hlive⟩).2 ?_
    exact (live_verify le_rfl peer _).mpr
      (.inr ⟨_, hopen, hne, rfl, rfl, hlive, by rw [Nat.sub_self]; exact Nat.zero_le _⟩)
  · intro h now' hle nonce
    refine and_congr_right fun _ => not_congr ?_
    rw [live_verify hle]
    refine or_iff_left ?_
    rintro ⟨o, hopen, hne, -, -, hlive, -⟩
    obtain ⟨he, hsig, hpub⟩ := openEnvelope_ok_iff.mp hopen
    exact (h _ _ _ he hsig hpub).elim hne hlive

/-- Where key `8` has signed nothing, its envelope is rejected, and the honest envelope of key `7`
with the same nonce, accepted without it, is rejected after it. -/
theorem forged_rejects_honest (c : Content) (hne : c.nonce ≠ "") :
    let P := referencePlatform fun k _ => k == [7]
    let verify (store : NonceStore) (bytes : Bytes) :=
      P.verifyFlatbufferEnvelopeForPeer store 0 bytes 300 "p"
    let after := (verify ∅ (c.bytes [8] [])).2
    (∀ parts, (verify ∅ (c.bytes [8] [])).1 ≠ .ok parts) ∧
      Passes ∅ 0 300 "p" c.nonce ∧ ¬ Passes after 0 300 "p" c.nonce ∧
      (∃ parts, (verify ∅ (c.bytes [7] c.canonicalBytes)).1 = .ok parts) ∧
      ∀ parts, (verify after (c.bytes [7] c.canonicalBytes)).1 ≠ .ok parts := by
  intro P verify after
  have hlive : after.Live 0 300 "p" c.nonce := by
    refine (live_verify le_rfl "p" c.nonce).mpr (.inr ⟨_, openEnvelope_bytes _ c [8] [], hne, ?_⟩)
    exact ⟨rfl, rfl, NonceStore.not_live_empty _ _ _ _, by decide⟩
  refine ⟨fun parts hok => ?_, ?_, fun hpass => ?_, ?_, fun parts hok => ?_⟩
  · have hissued := ((verify_bytes_ok_iff _ c [8] [] ∅ 0 300 "p" parts).mp hok).2.1
    exact absurd hissued (by decide)
  · exact checkAndInsertNonceForPeer_ok_iff.mpr ⟨hne, NonceStore.not_live_empty _ _ _ _⟩
  · exact (checkAndInsertNonceForPeer_ok_iff.mp hpass).2 hlive
  · exact ⟨_, (verify_bytes_ok_iff _ c [7] c.canonicalBytes ∅ 0 300 "p" _).mpr
      ⟨.inr (NonceStore.not_live_empty _ _ _ _), rfl, rfl, rfl⟩⟩
  · have hpass := ((verify_bytes_ok_iff _ c [7] c.canonicalBytes after 0 300 "p" parts).mp hok).1
    exact hpass.resolve_left hne hlive

/-- A forged envelope uses up the nonce `n`. -/
theorem forged_uses_up_nonce :
    let c : Content := ⟨[1], "apply", "n", 5, "ml-dsa-65", "", ""⟩
    let P := referencePlatform fun k _ => k == [7]
    let verify (store : NonceStore) (bytes : Bytes) :=
      P.verifyFlatbufferEnvelopeForPeer store 0 bytes 300 "p"
    let after := (verify ∅ (c.bytes [8] [])).2
    (∀ parts, (verify ∅ (c.bytes [8] [])).1 ≠ .ok parts) ∧
      Passes ∅ 0 300 "p" "n" ∧ ¬ Passes after 0 300 "p" "n" ∧
      (∃ parts, (verify ∅ (c.bytes [7] c.canonicalBytes)).1 = .ok parts) ∧
      ∀ parts, (verify after (c.bytes [7] c.canonicalBytes)).1 ≠ .ok parts := by
  intro c
  have hne : c.nonce ≠ "" := by decide
  exact forged_rejects_honest c hne

/-! ## Without the replay check -/

namespace Platform

variable (P : Platform)

/-- The canonical bytes as the verifier without the replay check rebuilds them. Its one builder is
given no KEM key and writes no peer, whatever the envelope carries. -/
def reconstructCanonicalSkip (e : Envelope) : Bytes :=
  P.buildEnvelopeCanonical (e.payload.getD []) (e.payloadType.getD "") (e.nonce.getD "") e.ts
    (e.alg.getD "") none

/-- `verify_flatbuffer_envelope_skip_nonce_check`. -/
def verifyFlatbufferEnvelopeSkipNonceCheck (bytes : Bytes) :
    Except AnyhowError VerifiedEnvelopeParts :=
  match P.openEnvelope bytes with
  | .error e => .error e
  | .ok o =>
    match withContext "flatbuffer signature verification failed"
      (P.verifyEnvelope o.pubBytes (P.reconstructCanonicalSkip o.envelope) o.sigBytes) with
    | .error e => .error e
    | .ok () => .ok o.parts

end Platform

/-- A content without its KEM key and its peer. -/
def Content.stripped (c : Content) : Content := { c with kemPubkey := "", peerId := "" }

theorem Content.stripped_eq {c : Content} (hkem : c.kemPubkey = "") (hpeer : c.peerId = "") :
    c.stripped = c := by
  obtain ⟨payload, payloadType, nonce, ts, alg, kemPubkey, peerId⟩ := c
  obtain rfl : kemPubkey = "" := hkem
  obtain rfl : peerId = "" := hpeer
  rfl

theorem reconstructCanonicalSkip_eq (P : Platform) (e : Envelope) :
    P.reconstructCanonicalSkip e = P.finishEnvelope e.content.stripped.canonical := rfl

/-- When the verifier without the replay check accepts. -/
theorem verifySkip_ok_iff {P : Platform} {bytes : Bytes} {parts : VerifiedEnvelopeParts} :
    P.verifyFlatbufferEnvelopeSkipNonceCheck bytes = .ok parts ↔
      ∃ o, P.openEnvelope bytes = .ok o ∧
        P.verifyEnvelope o.pubBytes (P.reconstructCanonicalSkip o.envelope) o.sigBytes = .ok () ∧
        o.parts = parts := by
  unfold Platform.verifyFlatbufferEnvelopeSkipNonceCheck
  cases hopen : P.openEnvelope bytes with
  | error e => simp
  | ok o =>
    simp only [Except.ok.injEq, exists_eq_left']
    cases P.verifyEnvelope o.pubBytes (P.reconstructCanonicalSkip o.envelope) o.sigBytes with
    | error e => simp [withContext]
    | ok u => simp [withContext]

/-- On an empty store the full verifier accepts whatever is signed. -/
theorem verify_empty_ok_iff {P : Platform} {now : Instant} {bytes : Bytes} {window : Duration}
    {peer : String} {parts : VerifiedEnvelopeParts} :
    (P.verifyFlatbufferEnvelopeForPeer ∅ now bytes window peer).1 = .ok parts ↔
      ∃ o, P.openEnvelope bytes = .ok o ∧
        P.verifyEnvelope o.pubBytes (P.reconstructCanonical o.envelope) o.sigBytes = .ok () ∧
        o.parts = parts := by
  have hfresh (nonce : String) : ¬ NonceStore.Live ∅ now window peer nonce := by
    rintro ⟨t, ht, -⟩
    exact nomatch ht
  simp only [verify_ok_iff, Platform.checkSignature, withContext_eq_ok_iff, hfresh,
    not_false_eq_true,
    or_true, true_and]

/-- Encoded tables that are equal have equal contents. -/
theorem Content.canonical_injective {c c' : Content} (h : c.canonical = c'.canonical) : c = c' := by
  have hcontent (d : Content) : d.canonical.content = d := rfl
  rw [← hcontent c, h, hcontent c']

/-- **When the two verifiers agree**: on every empty store they accept the same buffers with the
same parts and check the signature over the same bytes, exactly when what the buffer opens to has
neither a KEM key nor a peer. -/
theorem skipNonceCheck_agrees_iff (P : Platform) (hround : P.EnvelopeRoundTrip) (now : Instant)
    (bytes : Bytes) (window : Duration) (peer : String) :
    ((∀ parts, P.verifyFlatbufferEnvelopeSkipNonceCheck bytes = .ok parts ↔
        (P.verifyFlatbufferEnvelopeForPeer ∅ now bytes window peer).1 = .ok parts) ∧
      ∀ o, P.openEnvelope bytes = .ok o →
        P.reconstructCanonicalSkip o.envelope = P.reconstructCanonical o.envelope) ↔
      ∀ o, P.openEnvelope bytes = .ok o →
        o.envelope.content.kemPubkey = "" ∧ o.envelope.content.peerId = "" := by
  constructor
  · rintro ⟨-, hcanonical⟩ o hopen
    -- Equal bytes read back to equal tables, and the one has neither.
    have hbytes := hcanonical o hopen
    rw [reconstructCanonicalSkip_eq, P.reconstructCanonical_eq] at hbytes
    have htable := congrArg P.rootAsEnvelope hbytes
    rw [hround, hround] at htable
    have hcontent := Content.canonical_injective (Except.ok.inj htable)
    exact ⟨(congrArg Content.kemPubkey hcontent).symm, (congrArg Content.peerId hcontent).symm⟩
  · intro h
    have hcanonical : ∀ o, P.openEnvelope bytes = .ok o →
        P.reconstructCanonicalSkip o.envelope = P.reconstructCanonical o.envelope := by
      intro o hopen
      obtain ⟨hkem, hpeer⟩ := h o hopen
      rw [reconstructCanonicalSkip_eq, P.reconstructCanonical_eq, Content.stripped_eq hkem hpeer]
    refine ⟨fun parts => ?_, hcanonical⟩
    rw [verifySkip_ok_iff, verify_empty_ok_iff]
    refine exists_congr fun o => and_congr_right fun hopen => ?_
    rw [hcanonical o hopen]

/-- An envelope for no peer, with no KEM key. -/
theorem skipNonceCheck_agrees_reference :
    let c : Content := ⟨[1], "apply", "n", 5, "ml-dsa-65", "", ""⟩
    let P := referencePlatform fun k _ => k == [7]
    ∃ parts, P.verifyFlatbufferEnvelopeSkipNonceCheck (c.bytes [7] c.canonicalBytes) = .ok parts ∧
      (P.verifyFlatbufferEnvelopeForPeer ∅ 0 (c.bytes [7] c.canonicalBytes) 300 "p").1 =
        .ok parts := by
  intro c P
  have hround := referencePlatform_envelopeRoundTrip fun k _ => k == [7]
  have hagree := (skipNonceCheck_agrees_iff P hround 0 (c.bytes [7] c.canonicalBytes) 300 "p").mpr
    fun o hopen => by
      obtain rfl := Except.ok.inj ((openEnvelope_bytes _ c [7] c.canonicalBytes).symm.trans hopen)
      exact ⟨rfl, rfl⟩
  have hok : (P.verifyFlatbufferEnvelopeForPeer ∅ 0 (c.bytes [7] c.canonicalBytes) 300 "p").1 =
      .ok ⟨[1], [7], c.canonicalBytes, 5, "apply"⟩ :=
    (verify_bytes_ok_iff _ c [7] c.canonicalBytes ∅ 0 300 "p" _).mpr
      ⟨.inr (by decide), rfl, rfl, rfl⟩
  exact ⟨_, (hagree.1 _).mpr hok, hok⟩

/-- An envelope signed for peer `q` is accepted by the full verifier only. -/
theorem skipNonceCheck_rejects_peer :
    let c : Content := ⟨[1], "apply", "n", 5, "ml-dsa-65", "", "q"⟩
    let P := referencePlatform fun k _ => k == [7]
    (∃ parts, (P.verifyFlatbufferEnvelopeForPeer ∅ 0 (c.bytes [7] c.canonicalBytes) 300 "p").1 =
        .ok parts) ∧
      ∀ parts, P.verifyFlatbufferEnvelopeSkipNonceCheck (c.bytes [7] c.canonicalBytes) ≠
        .ok parts := by
  intro c P
  refine ⟨⟨_, (verify_bytes_ok_iff _ c [7] c.canonicalBytes ∅ 0 300 "p" _).mpr
    ⟨.inr (by decide), rfl, rfl, rfl⟩⟩, fun parts hok => ?_⟩
  obtain ⟨o, hopen, hverify, -⟩ := verifySkip_ok_iff.mp hok
  obtain rfl := Except.ok.inj ((openEnvelope_bytes _ c [7] c.canonicalBytes).symm.trans hopen)
  rw [referencePlatform_verifyEnvelope] at hverify
  -- The signature is over the bytes with the peer.
  have hbytes : (c.canonicalBytes == P.reconstructCanonicalSkip (c.envelope [7] c.canonicalBytes)) =
      false := by decide
  simp only [hbytes, Bool.and_false, Bool.false_eq_true, if_false] at hverify
  exact nomatch hverify

end Beemesh
