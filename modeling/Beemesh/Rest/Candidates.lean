import Beemesh.Basic
import Beemesh.Lib.Outcome
import Beemesh.Lib.Text

/-!
# Candidates for a task

`get_candidates` waits for the answers to a capacity query, takes the first few different ones and
reads a peer and a key out of each. An answer comes as a text: the peer and its key, or the peer
alone.

## Main definitions

* `PeerId`: the text of a peer id
* `Answer`, `Answer.text`: an answer to a capacity query, and the text it comes as
* `collectResponders`, `candidateOf`, `getCandidates`: the loop and what is read out of the answers
* `firstOffers`: the keys among the first different answers

## Main results

* `candidateOf_of_mem`: a candidate is read out of an answer that came in
* `candidateOf_text`: the candidate in an answer is what the answer offers
* `getCandidates_answers`: the candidates are the keys among the first different answers
-/

namespace Beemesh

/-! ## Answers -/

/-- The alphabet of base58. -/
def isBase58 (c : Char) : Bool := c.isAlphanum && c ∉ ['0', 'O', 'I', 'l']

/-- The text of a `PeerId`: a hash of a public key, in base58. -/
structure PeerId where
  text : String
  base58 : text.toList.all isBase58 = true
  length : 46 ≤ text.toList.length

theorem PeerId.ext_text {p q : PeerId} (h : p.text = q.text) : p = q := by
  cases p
  cases q
  cases h
  rfl

instance : DecidableEq PeerId := fun p q =>
  decidable_of_iff (p.text = q.text) ⟨PeerId.ext_text, congrArg PeerId.text⟩

/-- An answer to a capacity query: to the request itself, or on the gossip topic. -/
inductive Answer
  | keyed (peer : PeerId) (key : String)
  | bare (peer : PeerId)
  deriving DecidableEq

/-- What an observer of the query is sent. -/
def Answer.text : Answer → String
  | keyed peer key => peer.text ++ ":" ++ key
  | bare peer => peer.text

/-- The peer and its key, if the answer has one. -/
def Answer.offer : Answer → Option (PeerId × String)
  | keyed peer key => if key ≠ "" then some (peer, key) else none
  | bare _ => none

/-! ## The loop -/

variable {ε : Type}

/-- The part of an answer that is logged, when anything is. -/
def logPeer (logsInfo : Bool) (peer : String) : Outcome ε Unit :=
  if logsInfo then Outcome.strTo peer 16 >>= fun _ => .ok () else .ok ()

/-- The number of answers that is enough. -/
def enoughResponders : ℕ := 5

/-- The loop of `get_candidates` over the answers that come in before its timeout. -/
def collectResponders (logsInfo : Bool) : List String → List String → Outcome ε (List String)
  | responders, [] => .ok responders
  | responders, peer :: replies =>
    logPeer logsInfo peer >>= fun _ =>
      if peer ∈ responders then collectResponders logsInfo responders replies
      else if enoughResponders ≤ (responders ++ [peer]).length then .ok (responders ++ [peer])
      else collectResponders logsInfo (responders ++ [peer]) replies

/-- `find(':')` and the two slices around it. -/
def splitColon (s : String) : Option (String × String) :=
  (Text.breakOn [':'] s.toList).map fun (before, after) =>
    (String.ofList before, String.ofList after)

/-- The candidate in an answer. -/
def candidateOf (peerWithKey : String) : Option (String × String) :=
  (splitColon peerWithKey).filter fun (_, key) => key ≠ ""

/-- `get_candidates`, on the answers that come in before its timeout. -/
def getCandidates (logsInfo : Bool) (replies : List String) :
    Outcome ε (List (String × String)) :=
  collectResponders logsInfo [] replies >>= fun responders =>
    .ok (responders.filterMap candidateOf)

/-! ## What is read out of the answers -/

/-- A responder has answered. -/
theorem mem_collectResponders {logsInfo : Bool} {responders replies result : List String}
    (h : (collectResponders logsInfo responders replies : Outcome ε _) = .ok result)
    {peer : String} (hpeer : peer ∈ result) : peer ∈ responders ∨ peer ∈ replies := by
  induction replies generalizing responders with
  | nil =>
    obtain rfl := Outcome.ok.inj h
    exact .inl hpeer
  | cons reply replies ih =>
    rw [collectResponders, Outcome.bind_eq_ok_iff] at h
    obtain ⟨-, -, h⟩ := h
    split_ifs at h with hmem henough
    · exact (ih h).imp_right (List.mem_cons_of_mem _)
    · obtain rfl := Outcome.ok.inj h
      rcases List.mem_append.mp hpeer with hpeer | hpeer
      · exact .inl hpeer
      · exact .inr (List.mem_singleton.mp hpeer ▸ .head _)
    · rcases ih h with hpeer | hpeer
      · rcases List.mem_append.mp hpeer with hpeer | hpeer
        · exact .inl hpeer
        · exact .inr (List.mem_singleton.mp hpeer ▸ .head _)
      · exact .inr (List.mem_cons_of_mem _ hpeer)

/-- **A candidate** is read out of an answer that came in. -/
theorem candidateOf_of_mem {logsInfo : Bool} {replies : List String}
    {candidates : List (String × String)}
    (h : (getCandidates logsInfo replies : Outcome ε _) = .ok candidates)
    {c : String × String} (hc : c ∈ candidates) :
    ∃ reply ∈ replies, candidateOf reply = some c := by
  obtain ⟨responders, hcollect, hcandidates⟩ := Outcome.bind_eq_ok_iff.mp h
  obtain rfl := Outcome.ok.inj hcandidates
  obtain ⟨reply, hreply, hcandidate⟩ := List.mem_filterMap.mp hc
  refine ⟨reply, (mem_collectResponders hcollect hreply).resolve_left ?_, hcandidate⟩
  exact List.not_mem_nil

/-! ## Answers, read back -/

theorem utf8Size_of_isBase58 {c : Char} (h : isBase58 c = true) : c.utf8Size = 1 := by
  have halnum : c.isAlphanum = true := (Bool.and_eq_true_iff.mp h).1
  -- A letter is at most `z`, and a digit at most `9`.
  have hascii : c.val ≤ 0x7f := by
    rcases Bool.or_eq_true_iff.mp halnum with halpha | hdigit
    · rcases Bool.or_eq_true_iff.mp halpha with hupper | hlower
      · exact UInt32.le_trans (of_decide_eq_true hupper).2 (by decide)
      · exact UInt32.le_trans (of_decide_eq_true (Bool.and_eq_true_iff.mp hlower).2) (by decide)
    · exact UInt32.le_trans (of_decide_eq_true (Bool.and_eq_true_iff.mp hdigit).2) (by decide)
  exact Char.utf8Size_eq_one_iff.mpr hascii

theorem PeerId.colon_notMem (p : PeerId) : ':' ∉ p.text.toList := by
  intro hcolon
  have hbase := List.all_eq_true.mp p.base58 ':' hcolon
  exact absurd hbase (by decide)

theorem splitColon_keyed (p : PeerId) (key : String) :
    splitColon (p.text ++ ":" ++ key) = some (p.text, key) := by
  have hchars : (p.text ++ ":" ++ key).toList = p.text.toList ++ ':' :: key.toList := by
    simp [String.toList_append]
  rw [splitColon, hchars, Text.breakOn_append p.colon_notMem]
  simp

theorem splitColon_bare (p : PeerId) : splitColon p.text = none := by
  rw [splitColon, Text.breakOn_eq_none p.colon_notMem]
  rfl

/-- The candidate in an answer is what the answer offers. -/
theorem candidateOf_text (a : Answer) :
    candidateOf a.text = a.offer.map fun (peer, key) => (peer.text, key) := by
  cases a with
  | keyed peer key =>
    rw [candidateOf, Answer.text, splitColon_keyed, Answer.offer]
    by_cases hkey : key = ""
    · simp [hkey]
    · simp [hkey]
  | bare peer =>
    rw [candidateOf, Answer.text, splitColon_bare]
    rfl

theorem Answer.text_injective : Function.Injective Answer.text := by
  intro a b h
  have hsplit : splitColon a.text = splitColon b.text := congrArg splitColon h
  cases a with
  | keyed peer key =>
    cases b with
    | keyed peer' key' =>
      rw [Answer.text, Answer.text, splitColon_keyed, splitColon_keyed, Option.some.injEq,
        Prod.mk.injEq] at hsplit
      rw [PeerId.ext_text hsplit.1, hsplit.2]
    | bare peer' =>
      rw [Answer.text, Answer.text, splitColon_keyed, splitColon_bare] at hsplit
      exact nomatch hsplit
  | bare peer =>
    cases b with
    | keyed peer' key' =>
      rw [Answer.text, Answer.text, splitColon_keyed, splitColon_bare] at hsplit
      exact nomatch hsplit
    | bare peer' => rw [PeerId.ext_text h]

/-- Every text of an answer begins with the id of its peer. -/
theorem Answer.text_eq (a : Answer) : ∃ (p : PeerId) (back : String), a.text = p.text ++ back := by
  cases a with
  | keyed peer key => exact ⟨peer, ":" ++ key, String.append_assoc⟩
  | bare peer => exact ⟨peer, "", by simp [Answer.text]⟩

/-- Logging an answer never fails: the id of its peer is long enough. -/
theorem logPeer_text (logsInfo : Bool) (a : Answer) :
    (logPeer logsInfo a.text : Outcome ε Unit) = .ok () := by
  obtain ⟨p, back, htext⟩ := a.text_eq
  have hcut : (Outcome.strTo a.text 16 : Outcome ε String) =
      .ok (String.ofList (p.text.toList.take 16)) := by
    refine Outcome.strTo_eq_ok_iff.mpr
      ⟨String.ofList (p.text.toList.drop 16) ++ back, String.toList_inj.mp ?_, ?_⟩
    · simp only [htext, String.toList_append, String.toList_ofList]
      rw [← List.append_assoc, List.take_append_drop]
    · have hone : ∀ c ∈ p.text.toList.take 16, c.utf8Size = 1 := fun c hc =>
        utf8Size_of_isBase58 (List.all_eq_true.mp p.base58 c (List.mem_of_mem_take hc))
      have hlength := p.length
      rw [String.toList_ofList, List.map_congr_left hone, List.map_const', List.sum_replicate_nat,
        Nat.mul_one, List.length_take]
      omega
  rw [logPeer, hcut]
  cases logsInfo with
  | false => rfl
  | true => rfl

/-! ## The first answers -/

/-- What the first different answers offer. -/
def firstOffers (answers : List Answer) : List (PeerId × String) :=
  (answers.eraseDups.take enoughResponders).filterMap Answer.offer

/-- The loop, from the responders so far. -/
theorem collectResponders_answers (logsInfo : Bool) (answers responders : List Answer)
    (hfew : responders.length < enoughResponders) :
    (collectResponders logsInfo (responders.map Answer.text) (answers.map Answer.text) :
      Outcome ε _) =
      .ok (((responders ++ (answers.filter (· ∉ responders)).eraseDups).take
        enoughResponders).map Answer.text) := by
  induction answers generalizing responders with
  | nil =>
    rw [List.map_nil, collectResponders, List.filter_nil, List.eraseDups_nil, List.append_nil,
      List.take_of_length_le hfew.le]
  | cons a answers ih =>
    have hmem : a.text ∈ responders.map Answer.text ↔ a ∈ responders :=
      List.mem_map_of_injective Answer.text_injective
    rw [List.map_cons, collectResponders, logPeer_text, Outcome.ok_bind]
    by_cases ha : a ∈ responders
    · rw [if_pos (hmem.mpr ha), ih responders hfew, List.filter_cons_of_neg (by simpa using ha)]
    · rw [if_neg (mt hmem.mp ha), List.filter_cons_of_pos (by simpa using ha),
        List.eraseDups_cons, List.filter_filter]
      have hsnoc : responders.map Answer.text ++ [a.text] =
          (responders ++ [a]).map Answer.text := by
        simp
      have hfilter : (answers.filter fun b => !(b == a) && decide (b ∉ responders)) =
          answers.filter (· ∉ responders ++ [a]) := by
        refine List.filter_congr fun b _ => ?_
        by_cases hb : b = a
        · simp [hb]
        · simp [hb]
      rw [hfilter, hsnoc]
      have hassoc : responders ++ a :: (answers.filter (· ∉ responders ++ [a])).eraseDups =
          (responders ++ [a]) ++ (answers.filter (· ∉ responders ++ [a])).eraseDups := by simp
      rw [hassoc]
      split_ifs with henough
      · -- The last answer that is taken: nothing after it counts.
        rw [List.length_map] at henough
        have hlength : (responders ++ [a]).length = enoughResponders := by
          rw [List.length_append, List.length_singleton] at henough ⊢
          omega
        rw [← hlength, List.take_left]
      · rw [List.length_map] at henough
        exact ih (responders ++ [a]) (by omega)

/-- **The candidates** are the keys among the first different answers. -/
theorem getCandidates_answers (logsInfo : Bool) (answers : List Answer) :
    (getCandidates logsInfo (answers.map Answer.text) : Outcome ε _) =
      .ok ((firstOffers answers).map fun (peer, key) => (peer.text, key)) := by
  have hcollect : (collectResponders logsInfo [] (answers.map Answer.text) : Outcome ε _) =
      .ok ((answers.eraseDups.take enoughResponders).map Answer.text) := by
    have h := collectResponders_answers (ε := ε) logsInfo answers [] (by decide)
    simpa using h
  rw [getCandidates, hcollect, Outcome.ok_bind, List.filterMap_map, firstOffers,
    List.map_filterMap]
  congr 1
  exact List.filterMap_congr fun a _ => candidateOf_text a

/-! ## Some peers -/

/-- A peer for each digit of base58. -/
def peerNumber (n : Fin 9) : PeerId where
  text := String.ofList (List.replicate 45 '1' ++ [Char.ofNat ('1'.toNat + n)])
  base58 := by
    rw [String.toList_ofList, List.all_append, List.all_replicate]
    revert n
    decide
  length := by simp

theorem peerNumber_injective : Function.Injective peerNumber := by
  intro n m h
  have hlast := congrArg (fun p => p.text.toList.getLast?) h
  simp only [peerNumber, String.toList_ofList, List.getLast?_append, List.getLast?_singleton,
    Option.some_or, Option.some.injEq] at hlast
  revert n m
  decide

end Beemesh
