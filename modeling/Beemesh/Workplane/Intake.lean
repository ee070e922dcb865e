import Beemesh.Lib.Run
import Beemesh.Workplane.Scheduler

/-!
# The intake of a scheduler

A scheduler has one bounded channel for the proposals of all its rounds. Each round, in a goroutine
of its own, takes what comes next out of the channel for as long as its window is open, and keeps
what is for its task. What is for another task is gone: nobody puts it back.

Proposals are told apart by their place among all that were pushed, and it is noted of each whether
its round was collecting when it was pushed and when it was received. No step looks at these notes.

## Main definitions

* `Intake`, `intakeStep`: the channel and the rounds, and what happens to them
* `Intake.Kept`: every proposal in time for its round is in the round's list
* `ReceivesOwn`: the receiver is the round that the proposal is in time for

## Main results

* `Intake.Ordered.step`: the channel hands out the proposals in their order
* `kept_iff`: in a run, every proposal is kept exactly if every receiver takes its own
* `kept_of_alone`: so it is where the rounds take turns
* `Intake.Kept.exists_mem_collect`: what is kept is among what the round goes on with
-/

namespace Beemesh.Workplane

open Run

/-- A proposal in the channel. -/
structure Arrival (F : Type) where
  proposal : Proposal F
  /-- Its place among all that were pushed. -/
  serial : ℕ
  /-- Its round was collecting when it was pushed. -/
  awaited : Bool

/-- A proposal that a round took out of the channel. -/
structure Receipt (F : Type) extends Arrival F where
  /-- Its own round was collecting then. -/
  inTime : Bool

/-- A round, between the publication of its own proposal and the assignment. -/
structure Round (F : Type) where
  collecting : Bool
  received : List (Receipt F)

/-- The list of a round: what it received for its task. -/
def Round.list {F : Type} (taskID : String) (r : Round F) : List (Receipt F) :=
  r.received.filter fun x => x.proposal.taskID = taskID

/-- The channel of a scheduler, and its rounds by their tasks. -/
structure Intake (F : Type) where
  queue : List (Arrival F)
  rounds : Table String (Round F)
  /-- How many proposals were pushed. -/
  pushed : ℕ

/-- What happens to the channel. -/
inductive IntakeAction (F : Type)
  /-- The round of a task begins to collect. -/
  | start (taskID : String)
  | push (p : Proposal F)
  /-- The round of a task receives. -/
  | receive (taskID : String)
  /-- The window of a round closes, or its context is done. -/
  | close (taskID : String)

variable {F : Type}

namespace Intake

/-- The round of a task is collecting. -/
def collecting (s : Intake F) (taskID : String) : Bool :=
  (s.rounds.lookup taskID).any Round.collecting

/-- A scheduler with no rounds yet. -/
def empty : Intake F := ⟨[], ∅, 0⟩

/-- A round begins, if there is none for its task. -/
def start (s : Intake F) (taskID : String) : Intake F :=
  match s.rounds.lookup taskID with
  | none => { s with rounds := s.rounds.insert taskID ⟨true, []⟩ }
  | some _ => s

/-- A push, if there is room. -/
def push (capacity : ℕ) (s : Intake F) (p : Proposal F) : Intake F :=
  if s.queue.length < capacity then
    { s with
      queue := s.queue ++ [⟨p, s.pushed, s.collecting p.taskID⟩]
      pushed := s.pushed + 1 }
  else s

/-- A round receives, if it is collecting and there is something to receive. -/
def receive (s : Intake F) (taskID : String) : Intake F :=
  match s.rounds.lookup taskID, s.queue with
  | some r, a :: queue =>
    if r.collecting then
      let x : Receipt F := { a with inTime := s.collecting a.proposal.taskID }
      { s with
        queue := queue
        rounds := s.rounds.insert taskID { r with received := r.received ++ [x] } }
    else s
  | _, _ => s

/-- A round stops collecting. -/
def close (s : Intake F) (taskID : String) : Intake F :=
  match s.rounds.lookup taskID with
  | some r => { s with rounds := s.rounds.insert taskID { r with collecting := false } }
  | none => s

end Intake

/-- One step, where it is possible. No two rounds are for one task. -/
def intakeStep (capacity : ℕ) (s : Intake F) : IntakeAction F → Intake F
  | .start taskID => s.start taskID
  | .push p => s.push capacity p
  | .receive taskID => s.receive taskID
  | .close taskID => s.close taskID

namespace Intake

/-- The round of a task has received this proposal. -/
def Received (s : Intake F) (taskID : String) (x : Receipt F) : Prop :=
  ∃ r, s.rounds.lookup taskID = some r ∧ x ∈ r.received

/-- Every proposal that was pushed while its round was collecting, and received before the window
of that round closed, is in the list of its round. -/
def Kept (s : Intake F) : Prop :=
  ∀ taskID x, s.Received taskID x → x.awaited = true → x.inTime = true →
    ∃ own, s.rounds.lookup x.proposal.taskID = some own ∧ x ∈ own.list x.proposal.taskID

/-- What a step takes out of the channel, and the task of the round that takes it. -/
def taken (s : Intake F) : IntakeAction F → Option (String × Receipt F)
  | .receive taskID =>
    match s.queue with
    | a :: _ =>
      if s.collecting taskID then
        some (taskID, { a with inTime := s.collecting a.proposal.taskID })
      else none
    | [] => none
  | _ => none

/-- A round that takes a proposal takes its own, if the proposal is in time for its round. -/
def ReceivesOwn (s : Intake F) (a : IntakeAction F) : Prop :=
  ∀ taskID x, s.taken a = some (taskID, x) → x.awaited = true → x.inTime = true →
    taskID = x.proposal.taskID

/-- A round receives only while no other round is collecting. -/
def Alone (s : Intake F) : IntakeAction F → Prop
  | .receive taskID => ∀ other, s.collecting other = true → other = taskID
  | _ => True

/-! ## What the rounds receive -/

/-- The list of a round is what `collect` makes of the proposals it received. -/
theorem map_proposal_list (taskID : String) (r : Round F) :
    (r.list taskID).map (fun x => x.proposal) =
      collect taskID (r.received.map fun x => x.proposal) := by
  rw [collect, List.filter_map]
  rfl

variable {capacity : ℕ} {s : Intake F} {taskID : String} {x : Receipt F}

theorem received_iff_of_lookup {r : Round F} (hr : s.rounds.lookup taskID = some r) :
    s.Received taskID x ↔ x ∈ r.received := by
  constructor
  · rintro ⟨r', hr', hx⟩
    rwa [Option.some.inj (hr.symm.trans hr')]
  · exact fun hx => ⟨r, hr, hx⟩

/-- After a round `t` is put in place, it has received what it holds, and the others what they had
before. -/
theorem received_of_insert {s' : Intake F} {t : String} {r : Round F}
    (hs' : s'.rounds = s.rounds.insert t r) :
    s'.Received taskID x ↔ if taskID = t then x ∈ r.received else s.Received taskID x := by
  split_ifs with heq
  · refine received_iff_of_lookup ?_
    rw [heq, hs', AList.lookup_insert]
  · rw [Received, hs', AList.lookup_insert_ne heq, Received]

theorem taken_receive_of_cons {a : Arrival F} {queue : List (Arrival F)}
    (hqueue : s.queue = a :: queue) (taskID : String) :
    s.taken (.receive taskID) = if s.collecting taskID then
      some (taskID, { a with inTime := s.collecting a.proposal.taskID }) else none := by
  rw [taken, hqueue]

/-- A round that receives takes the head of the channel, or nothing happens. -/
theorem receive_cases (s : Intake F) (taskID : String) :
    (s.receive taskID = s ∧ s.taken (.receive taskID) = none) ∨
      ∃ r a queue, s.rounds.lookup taskID = some r ∧ s.queue = a :: queue ∧
        s.taken (.receive taskID) =
          some (taskID, { a with inTime := s.collecting a.proposal.taskID }) ∧
        s.receive taskID = { s with
          queue := queue
          rounds := s.rounds.insert taskID
            { r with
              received :=
                r.received ++ [{ a with inTime := s.collecting a.proposal.taskID }] } } := by
  unfold receive
  cases hr : s.rounds.lookup taskID with
  | none =>
    have hclosed : s.collecting taskID = false := by rw [collecting, hr, Option.any_none]
    refine .inl ⟨rfl, ?_⟩
    cases hqueue : s.queue with
    | nil => rw [taken, hqueue]
    | cons a queue => rw [taken_receive_of_cons hqueue, hclosed, if_neg Bool.false_ne_true]
  | some r =>
    cases hqueue : s.queue with
    | nil => exact .inl ⟨rfl, by rw [taken, hqueue]⟩
    | cons a queue =>
      have hcollecting : s.collecting taskID = r.collecting := by
        rw [collecting, hr, Option.any_some]
      have htaken := taken_receive_of_cons hqueue taskID
      rw [hcollecting] at htaken
      dsimp only
      split_ifs with hopen
      · exact .inr ⟨r, a, queue, rfl, rfl, htaken.trans (if_pos hopen), rfl⟩
      · exact .inl ⟨rfl, htaken.trans (if_neg hopen)⟩

/-- **What a step brings to the rounds**: what it takes out of the channel goes to the round that
takes it, and nothing else changes. -/
theorem received_intakeStep (capacity : ℕ) (s : Intake F) (a : IntakeAction F) (taskID : String)
    (x : Receipt F) :
    (intakeStep capacity s a).Received taskID x ↔
      s.Received taskID x ∨ s.taken a = some (taskID, x) := by
  -- A step that takes nothing only has to keep what there was.
  have hkeep {s' : Intake F} (h : s'.Received taskID x ↔ s.Received taskID x)
      (htaken : s.taken a = none) :
      s'.Received taskID x ↔ s.Received taskID x ∨ s.taken a = some (taskID, x) := by
    rw [htaken, h]
    exact (or_iff_left fun hnone => Option.some_ne_none _ hnone.symm).symm
  cases a with
  | start t =>
    refine hkeep ?_ rfl
    simp only [intakeStep, start]
    split
    · next hnone =>
      rw [received_of_insert rfl]
      split_ifs with heq
      · refine iff_of_false List.not_mem_nil ?_
        rintro ⟨r, hr, -⟩
        rw [heq, hnone] at hr
        cases hr
      · exact Iff.rfl
    · exact Iff.rfl
  | push p =>
    refine hkeep ?_ rfl
    simp only [intakeStep, push]
    split_ifs <;> exact Iff.rfl
  | receive t =>
    simp only [intakeStep]
    rcases s.receive_cases t with ⟨heq, htaken⟩ | ⟨r, a, queue, hr, -, htaken, heq⟩
    · rw [heq]
      exact hkeep Iff.rfl htaken
    · rw [heq, received_of_insert rfl, htaken, Option.some.injEq, Prod.mk.injEq]
      split_ifs with hown
      · rw [hown, received_iff_of_lookup hr, List.mem_append, List.mem_singleton,
          and_iff_right rfl, eq_comm (a := x)]
      · exact (or_iff_left fun h => hown h.1.symm).symm
  | close t =>
    refine hkeep ?_ rfl
    simp only [intakeStep, close]
    split
    · next r hr =>
      rw [received_of_insert rfl]
      split_ifs with heq
      · rw [heq, received_iff_of_lookup hr]
      · exact Iff.rfl
    · exact Iff.rfl

/-! ## The order of the channel -/

/-- The channel hands out proposals in the order in which they were pushed: everything received is
older than everything in the channel. -/
structure Ordered (s : Intake F) : Prop where
  queue_sorted : s.queue.Pairwise fun a b => a.serial < b.serial
  queue_lt : ∀ a ∈ s.queue, a.serial < s.pushed
  received_lt : ∀ taskID x, s.Received taskID x →
    x.serial < s.pushed ∧ ∀ a ∈ s.queue, x.serial < a.serial

theorem ordered_empty : (empty : Intake F).Ordered where
  queue_sorted := List.Pairwise.nil
  queue_lt _ ha := absurd ha List.not_mem_nil
  received_lt taskID _ hx := by
    obtain ⟨r, hr, -⟩ := hx
    rw [empty, AList.lookup_empty] at hr
    cases hr

/-- What a step takes is the head of the channel. -/
theorem exists_cons_of_taken {a : IntakeAction F} (h : s.taken a = some (taskID, x)) :
    ∃ queue, s.queue = x.toArrival :: queue ∧ a = .receive taskID ∧
      x.inTime = s.collecting x.proposal.taskID := by
  cases a with
  | receive t =>
    cases hqueue : s.queue with
    | nil =>
      rw [taken, hqueue] at h
      cases h
    | cons a queue =>
      rw [taken_receive_of_cons hqueue] at h
      split_ifs at h
      obtain ⟨rfl, rfl⟩ := Prod.mk.inj (Option.some.inj h)
      exact ⟨queue, rfl, rfl, rfl⟩
  | _ => cases h

/-- What a step does to the channel: it puts a new proposal at its end, or takes off the first one,
which goes to the round that receives it. -/
theorem queue_intakeStep (capacity : ℕ) (s : Intake F) (a : IntakeAction F) :
    ((intakeStep capacity s a).queue = s.queue ∧ (intakeStep capacity s a).pushed = s.pushed ∧
        s.taken a = none) ∨
      (∃ b : Arrival F, b.serial = s.pushed ∧ (intakeStep capacity s a).queue = s.queue ++ [b] ∧
        (intakeStep capacity s a).pushed = s.pushed + 1 ∧ s.taken a = none) ∨
      ∃ taskID x, s.taken a = some (taskID, x) ∧
        s.queue = x.toArrival :: (intakeStep capacity s a).queue ∧
        (intakeStep capacity s a).pushed = s.pushed := by
  cases a with
  | start t =>
    refine .inl ?_
    simp only [intakeStep, start]
    split <;> exact ⟨rfl, rfl, rfl⟩
  | push p =>
    simp only [intakeStep, push]
    split_ifs
    · exact .inr (.inl ⟨_, rfl, rfl, rfl, rfl⟩)
    · exact .inl ⟨rfl, rfl, rfl⟩
  | receive t =>
    simp only [intakeStep]
    rcases s.receive_cases t with ⟨heq, htaken⟩ | ⟨r, a, queue, -, hqueue, htaken, heq⟩
    · exact .inl ⟨congrArg queue heq, congrArg pushed heq, htaken⟩
    · rw [heq]
      exact .inr (.inr ⟨_, _, htaken, hqueue, rfl⟩)
  | close t =>
    refine .inl ?_
    simp only [intakeStep, close]
    split <;> exact ⟨rfl, rfl, rfl⟩

theorem Ordered.step (hs : s.Ordered) (capacity : ℕ) (a : IntakeAction F) :
    (intakeStep capacity s a).Ordered := by
  have hreceived := received_intakeStep capacity s a
  rcases queue_intakeStep capacity s a with
    ⟨hqueue, hpushed, htaken⟩ | ⟨b, hb, hqueue, hpushed, htaken⟩ | ⟨t, x, htaken, hqueue, hpushed⟩
  -- The channel stays as it is.
  · simp only [htaken] at hreceived
    constructor
    · rw [hqueue]
      exact hs.queue_sorted
    · rw [hqueue, hpushed]
      exact hs.queue_lt
    · intro taskID x hx
      rw [hqueue, hpushed]
      exact hs.received_lt taskID x (((hreceived taskID x).mp hx).resolve_right nofun)
  -- A new proposal is younger than all others.
  · simp only [htaken] at hreceived
    constructor
    · rw [hqueue, List.pairwise_append]
      refine ⟨hs.queue_sorted, List.pairwise_singleton _ _, fun a ha b' hb' => ?_⟩
      rw [List.mem_singleton.mp hb', hb]
      exact hs.queue_lt a ha
    · intro a ha
      rw [hqueue, List.mem_append, List.mem_singleton] at ha
      rw [hpushed]
      rcases ha with ha | rfl
      · exact Nat.lt_succ_of_lt (hs.queue_lt a ha)
      · exact hb ▸ Nat.lt_succ_self _
    · intro taskID x hx
      obtain ⟨hlt, hqueued⟩ :=
        hs.received_lt taskID x (((hreceived taskID x).mp hx).resolve_right nofun)
      rw [hqueue, hpushed]
      refine ⟨Nat.lt_succ_of_lt hlt, fun a ha => ?_⟩
      rcases List.mem_append.mp ha with ha | ha
      · exact hqueued a ha
      · rw [List.mem_singleton.mp ha, hb]
        exact hlt
  -- What is received was the oldest in the channel.
  · have hsorted := hs.queue_sorted
    rw [hqueue, List.pairwise_cons] at hsorted
    constructor
    · exact hsorted.2
    · intro a ha
      rw [hpushed]
      exact hs.queue_lt a (hqueue ▸ List.mem_cons_of_mem _ ha)
    · intro taskID y hy
      rw [hpushed]
      rcases (hreceived taskID y).mp hy with hy | hy
      · obtain ⟨hlt, hqueued⟩ := hs.received_lt taskID y hy
        exact ⟨hlt, fun a ha => hqueued a (hqueue ▸ List.mem_cons_of_mem _ ha)⟩
      · obtain ⟨rfl, rfl⟩ := Prod.mk.inj (Option.some.inj (htaken.symm.trans hy))
        exact ⟨hs.queue_lt x.toArrival (hqueue ▸ List.mem_cons_self), hsorted.1⟩

/-! ## Proposals that are kept -/

/-- A step that takes a proposal in time for another round loses it. -/
theorem not_kept_of_not_receivesOwn (hs : s.Ordered) {a : IntakeAction F}
    (h : ¬ s.ReceivesOwn a) : ¬ (intakeStep capacity s a).Kept := by
  intro hkept
  refine h fun taskID x htaken hawaited hinTime => ?_
  obtain ⟨own, hown, hx⟩ := hkept taskID x
    ((received_intakeStep capacity s a taskID x).mpr (.inr htaken)) hawaited hinTime
  have hreceived : (intakeStep capacity s a).Received x.proposal.taskID x :=
    ⟨own, hown, List.mem_of_mem_filter hx⟩
  rcases (received_intakeStep capacity s a _ x).mp hreceived with hbefore | hnow
  · -- It is still in the channel, so no round can have received it.
    obtain ⟨queue, hqueue, -⟩ := exists_cons_of_taken htaken
    have hlt := (hs.received_lt _ x hbefore).2 x.toArrival (hqueue ▸ List.mem_cons_self)
    exact absurd hlt (lt_irrefl _)
  · exact (Prod.mk.inj (Option.some.inj (htaken.symm.trans hnow))).1

/-- What is kept is among the proposals that the round goes on with. -/
theorem Kept.exists_mem_collect (hs : s.Kept) (hx : s.Received taskID x)
    (hawaited : x.awaited = true) (hinTime : x.inTime = true) :
    ∃ own, s.rounds.lookup x.proposal.taskID = some own ∧
      x.proposal ∈ collect x.proposal.taskID (own.received.map fun y => y.proposal) := by
  obtain ⟨own, hown, hmem⟩ := hs taskID x hx hawaited hinTime
  exact ⟨own, hown, map_proposal_list _ own ▸ List.mem_map_of_mem hmem⟩

theorem Kept.step (hs : s.Kept) {a : IntakeAction F} (h : s.ReceivesOwn a) :
    (intakeStep capacity s a).Kept := by
  intro taskID x hx hawaited hinTime
  have hown : (intakeStep capacity s a).Received x.proposal.taskID x := by
    rw [received_intakeStep]
    rcases (received_intakeStep capacity s a taskID x).mp hx with hx | hx
    · obtain ⟨own, hown, hmem⟩ := hs taskID x hx hawaited hinTime
      exact .inl ⟨own, hown, List.mem_of_mem_filter hmem⟩
    · exact .inr (h taskID x hx hawaited hinTime ▸ hx)
  obtain ⟨own, hlookup, hmem⟩ := hown
  exact ⟨own, hlookup, List.mem_filter.mpr ⟨hmem, decide_eq_true rfl⟩⟩

end Intake

/-- **Proposals are kept where the rounds take their own**: whatever rounds run and whatever order
they receive in, every proposal in time for its round is in its list at every point of the run
exactly if no round takes a proposal that is in time for another. -/
theorem kept_iff (capacity : ℕ) (acts : List (IntakeAction F)) :
    Always (intakeStep capacity) Intake.Kept Intake.empty acts ↔
      Guarded (intakeStep capacity) Intake.ReceivesOwn Intake.empty acts := by
  have hstart : (Intake.empty : Intake F).Ordered ∧ (Intake.empty : Intake F).Kept := by
    refine ⟨Intake.ordered_empty, fun taskID x hx => ?_⟩
    obtain ⟨r, hr, -⟩ := hx
    rw [Intake.empty, AList.lookup_empty] at hr
    cases hr
  have hp (s : Intake F) (hs : s.Ordered ∧ s.Kept) : s.Kept := hs.2
  have hstep (s : Intake F) (a : IntakeAction F) (hs : s.Ordered ∧ s.Kept)
      (hguard : s.ReceivesOwn a) :
      (intakeStep capacity s a).Ordered ∧ (intakeStep capacity s a).Kept :=
    ⟨hs.1.step capacity a, hs.2.step hguard⟩
  have hbreak (s : Intake F) (a : IntakeAction F) (_ : True) (hs : s.Ordered ∧ s.Kept)
      (hguard : ¬ s.ReceivesOwn a) : ¬ (intakeStep capacity s a).Kept :=
    Intake.not_kept_of_not_receivesOwn hs.1 hguard
  exact always_iff_guarded hp hstep hbreak (fun _ _ => trivial) hstart

/-- **Rounds that take turns lose nothing**: where a round receives only while no other is
collecting, every proposal in time for its round is in its list. -/
theorem kept_of_alone {capacity : ℕ} {acts : List (IntakeAction F)}
    (h : Guarded (intakeStep capacity) Intake.Alone Intake.empty acts) :
    Always (intakeStep capacity) Intake.Kept Intake.empty acts := by
  refine (kept_iff capacity acts).mpr (h.mono fun s a halone taskID x htaken _ hinTime => ?_)
  obtain ⟨queue, -, rfl, hcollecting⟩ := Intake.exists_cons_of_taken htaken
  exact (halone _ (hcollecting ▸ hinTime)).symm

/-- A proposal for one round that the other one takes. -/
theorem proposal_stolen :
    let stray : Proposal ℕ := ⟨"b", "node", 1, 0⟩
    let s := run (intakeStep 256) Intake.empty
      [.start "a", .start "b", .push stray, .receive "a"]
    s.collecting "b" = true ∧ s.Received "a" ⟨⟨stray, 0, true⟩, true⟩ ∧
      s.rounds.lookup "b" = some ⟨true, []⟩ ∧ ¬ s.Kept := by
  intro stray s
  have hreceived : s.Received "a" ⟨⟨stray, 0, true⟩, true⟩ := ⟨_, rfl, List.mem_singleton_self _⟩
  have hempty : s.rounds.lookup "b" = some ⟨true, []⟩ := rfl
  refine ⟨rfl, hreceived, hempty, fun hkept => ?_⟩
  obtain ⟨own, hown, hmem⟩ := hkept "a" _ hreceived rfl rfl
  obtain rfl := Option.some.inj (hempty.symm.trans hown)
  cases hmem

end Beemesh.Workplane
