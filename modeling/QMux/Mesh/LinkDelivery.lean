import QMux.Mesh.LinkQueue
import QMux.Support.Transition

/-!
# Delivery over a link

The queue of one link between the broadcasts of the control state and its one
consumer: first `sendPeerSnapshot`, which takes frames up to the fence, and
then the control loop of the session.  Every call on the queue is one critical
section.  Between two of them the consumer holds a copy of the head, which
stays in the queue until its write is done; `Close` may clear the queue at any
time.  A run also records the batches that were offered and accepted and the
frames that were written whole.
-/

namespace QMux.Mesh

open Support Protocol

/-- Where the consumer of a link is. -/
inductive Consumer where
  /-- `sendPeerSnapshot` before its loop over deltas. -/
  | preparing
  /-- `sendPeerSnapshot` before `take`. -/
  | taking (sent fence : Nat)
  /-- It has taken a frame, which is not yet written. -/
  | sending (frame : BackedFrame) (sent fence : Nat)
  /-- It has written the frame, before `done`. -/
  | delivered (frame : BackedFrame) (sent fence : Nat)
  /-- `sendPeerSnapshot` has returned without an error. -/
  | registered
  /-- The control loop of the session before `peek`. -/
  | looping
  /-- It has seen a frame, which is not yet written. -/
  | writing (frame : BackedFrame)
  /-- It has written the frame, before `done`. -/
  | wrote (frame : BackedFrame)
  /-- Either has returned an error. -/
  | returned
deriving DecidableEq

namespace Consumer

/-- The frame that is being written. -/
def held : Consumer → Option BackedFrame
  | .sending frame _ _ => some frame
  | .writing frame => some frame
  | _ => none

/-- The frame that is written and not yet taken off the queue. -/
def finished : Consumer → Option BackedFrame
  | .delivered frame _ _ => some frame
  | .wrote frame => some frame
  | _ => none

end Consumer

structure LinkRun where
  queue : LinkQueue
  consumer : Consumer
  offered : List (List BackedFrame)
  accepted : List (List BackedFrame)
  written : List BackedFrame
  refused : Bool
  cleared : Bool
deriving DecidableEq

inductive LinkOp where
  /-- A broadcast. -/
  | push (batch : List BackedFrame)
  /-- `clear` in `Close`. -/
  | clear
  /-- `sendPeerSnapshot` reads the fence after its snapshot. -/
  | fence (revision fence : Nat)
  | take
  | send
  | doneSent
  /-- All deltas up to the fence are sent. -/
  | finish
  /-- The session starts. -/
  | start
  | peek
  | write
  | doneWritten
  /-- The consumer returns, by a cancelled context, a failed write, a missed
  deadline or another reason. -/
  | giveUp
deriving DecidableEq

namespace LinkRun

def new (limits : MeshLimits) : LinkRun :=
  ⟨.new limits, .preparing, [], [], [], false, false⟩

/-- The consumer looks at the queue: an overflow ends it, and the head is
held. -/
def look (s : LinkRun) (hold : BackedFrame → Consumer) : LinkRun :=
  if s.queue.failed then { s with consumer := .returned }
  else
    match s.queue.frames with
    | [] => s
    | head :: _ => { s with consumer := hold head }

/-- The sequence check of `sendPeerSnapshot`. -/
def inSequence (frame : BackedFrame) (sent fence : Nat) : Bool :=
  (frame.sequence = sent + 1 ∨ frame.sequence = sent) ∧ frame.sequence ≤ fence

def apply (s : LinkRun) : LinkOp → LinkRun
  | .push batch =>
    let (queued, queue) := s.queue.push batch
    { s with
      queue := queue
      offered := s.offered ++ [batch]
      accepted := if queued then s.accepted ++ [batch] else s.accepted
      refused := s.refused || !queued }
  | .clear => { s with queue := s.queue.clear, cleared := true }
  | .fence revision fence => { s with consumer := .taking revision fence }
  | .take =>
    match s.consumer with
    | .taking sent fence => s.look (.sending · sent fence)
    | _ => s
  | .send =>
    match s.consumer with
    | .sending frame sent fence =>
      if inSequence frame sent fence then
        { s with
          consumer := .delivered frame sent fence
          written := s.written ++ [frame] }
      else { s with consumer := .returned }
    | _ => s
  | .doneSent =>
    match s.consumer with
    | .delivered frame sent fence =>
      { s with
        queue := s.queue.done frame
        consumer := .taking
          (if frame.frame.last then frame.sequence else sent) fence }
    | _ => s
  | .finish => { s with consumer := .registered }
  | .start => { s with consumer := .looping }
  | .peek =>
    match s.consumer with
    | .looping => s.look .writing
    | _ => s
  | .write =>
    match s.consumer with
    | .writing frame =>
      { s with consumer := .wrote frame, written := s.written ++ [frame] }
    | _ => s
  | .doneWritten =>
    match s.consumer with
    | .wrote frame =>
      { s with queue := s.queue.done frame, consumer := .looping }
    | _ => s
  | .giveUp => { s with consumer := .returned }

/-- When the code can do this next.  A batch has at least one frame. -/
def Enabled (s : LinkRun) : LinkOp → Prop
  | .push batch => batch ≠ []
  | .clear => True
  | .fence _ _ => s.consumer = .preparing
  | .take => ∃ sent fence, s.consumer = .taking sent fence ∧ sent < fence
  | .send => ∃ frame sent fence, s.consumer = .sending frame sent fence
  | .doneSent => ∃ frame sent fence, s.consumer = .delivered frame sent fence
  | .finish => ∃ sent fence, s.consumer = .taking sent fence ∧ fence ≤ sent
  | .start => s.consumer = .registered
  | .peek => s.consumer = .looping
  | .write => ∃ frame, s.consumer = .writing frame
  | .doneWritten => ∃ frame, s.consumer = .wrote frame
  | .giveUp => True

def system (limits : MeshLimits) : TransitionSystem LinkRun where
  initial s := s = new limits
  step s next := ∃ op, s.Enabled op ∧ next = s.apply op

/-- The queue is what is left of the accepted batches when what was written is
taken off; what the consumer holds is the next frame. -/
structure Placed (s : LinkRun) : Prop where
  /-- A frame at the head of the queue, or of what was there. -/
  held : ∀ frame, s.consumer.held = some frame →
    s.written ++ [frame] <+: s.accepted.flatten
  left : s.cleared = false → s.consumer ≠ .returned →
    s.consumer.finished = none →
    s.accepted.flatten = s.written ++ s.queue.frames
  done : s.cleared = false → ∀ frame, s.consumer.finished = some frame →
    ∃ rest, s.queue.frames = frame :: rest ∧
      s.accepted.flatten = s.written ++ rest

structure Sound (limits : MeshLimits) (s : LinkRun) : Prop where
  limits : s.queue.maxMessages = limits.maxControlQueueMessages ∧
    s.queue.maxBytes = limits.maxControlQueueBytes
  bounded : s.queue.Bounded
  ordered : s.accepted <+: s.offered
  whole : s.queue.failed = false → s.accepted = s.offered
  delivered : s.written <+: s.accepted.flatten
  placed : s.Placed
  refused : s.refused = true → s.queue.failed = true
  cleared : s.cleared = true → s.queue.frames = [] ∧ s.queue.failed = true

variable {limits : MeshLimits} {s : LinkRun}

theorem new_sound (limits : MeshLimits) : (new limits).Sound limits := by
  refine ⟨⟨rfl, rfl⟩, LinkQueue.new_bounded limits, List.prefix_rfl,
    fun _ => rfl, List.nil_prefix, ⟨nofun, fun _ _ _ => rfl, nofun⟩, nofun,
    nofun⟩

/-! ## Steps -/

theorem Sound.move (sound : s.Sound limits) (next : Consumer)
    (free : next.held = none) (clean : next.finished = none)
    (orderly : next = .returned ∨
      s.consumer ≠ .returned ∧ s.consumer.finished = none) :
    Sound limits { s with consumer := next } := by
  refine { sound with placed := ⟨?_, ?_, ?_⟩ }
  · intro frame holds
    cases free.symm.trans holds
  · intro intact active _
    rcases orderly with same | ⟨before, settled⟩
    · exact absurd same active
    · exact sound.placed.left intact before settled
  · intro _ frame ends
    cases clean.symm.trans ends

theorem Sound.giveUp (sound : s.Sound limits) :
    Sound limits { s with consumer := .returned } :=
  sound.move .returned rfl rfl (.inl rfl)

variable {hold : BackedFrame → Consumer} {frame : BackedFrame} {next : Consumer}
  {op : LinkOp}

section

variable (sound : s.Sound limits)

include sound

theorem Sound.look (active : s.consumer ≠ .returned)
    (settled : s.consumer.finished = none)
    (holds : ∀ frame, (hold frame).held = some frame)
    (pending : ∀ frame, (hold frame).finished = none) :
    (s.look hold).Sound limits := by
  unfold LinkRun.look
  split
  · exact sound.giveUp
  rename_i fine
  split
  · exact sound
  rename_i head rest frames
  have intact : s.cleared = false := by
    by_contra cleared
    exact fine (sound.cleared (by simpa using cleared)).2
  have left := sound.placed.left intact active settled
  refine { sound with placed := ⟨?_, ?_, ?_⟩ }
  · intro frame same
    rw [holds head] at same
    cases same
    rw [left, frames]
    exact ⟨rest, by simp⟩
  · intro _ _ _
    exact left
  · intro _ frame same
    rw [pending head] at same
    cases same

theorem Sound.deliver (holds : s.consumer.held = some frame)
    (active : s.consumer ≠ .returned) (settled : s.consumer.finished = none)
    (free : next.held = none) (ends : next.finished = some frame) :
    Sound limits
      { s with consumer := next, written := s.written ++ [frame] } := by
  have longer := sound.placed.held frame holds
  refine { sound with delivered := longer, placed := ⟨?_, ?_, ?_⟩ }
  · intro other same
    cases free.symm.trans same
  · intro _ _ none
    cases none.symm.trans ends
  · intro intact other same
    cases ends.symm.trans same
    have left := sound.placed.left intact active settled
    rw [left, List.prefix_append_right_inj] at longer
    obtain ⟨rest, split⟩ := longer
    refine ⟨rest, split.symm, ?_⟩
    show s.accepted.flatten = s.written ++ [frame] ++ rest
    rw [left, ← split, List.append_assoc]

theorem Sound.done (ends : s.consumer.finished = some frame)
    (free : next.held = none) (clean : next.finished = none) :
    Sound limits
      { s with queue := s.queue.done frame, consumer := next } := by
  by_cases cleared : s.cleared = true
  · have empty := (sound.cleared cleared).1
    rw [LinkQueue.done_nil frame empty]
    refine { sound with placed := ⟨?_, ?_, ?_⟩ }
    · intro other same
      cases free.symm.trans same
    all_goals
      intro intact
      cases cleared.symm.trans intact
  · have intact : s.cleared = false := by simpa using cleared
    obtain ⟨rest, head, left⟩ := sound.placed.done intact frame ends
    rw [LinkQueue.done_head head]
    refine ⟨sound.limits, sound.bounded.tail head, sound.ordered,
      sound.whole, sound.delivered, ⟨?_, ?_, ?_⟩, sound.refused, ?_⟩
    · intro other same
      cases free.symm.trans same
    · intro _ _ _
      exact left
    · intro _ other same
      cases clean.symm.trans same
    · intro now
      exact absurd now cleared

theorem Sound.push (batch : List BackedFrame) :
    (s.apply (.push batch)).Sound limits := by
  have bounded := sound.bounded.push batch
  rcases s.queue.push_cases batch with ⟨queued, fine, same, -, -⟩ |
    ⟨refused, same⟩
  · have intact : s.cleared = false := by
      by_contra cleared
      have failed := (sound.cleared (by simpa using cleared)).2
      rw [fine] at failed
      cases failed
    have more : s.accepted.flatten <+: (s.accepted ++ [batch]).flatten := by
      rw [List.flatten_append]
      exact List.prefix_append _ _
    show Sound limits { s with
      queue := (s.queue.push batch).2
      offered := s.offered ++ [batch]
      accepted := if (s.queue.push batch).1 then s.accepted ++ [batch]
        else s.accepted
      refused := s.refused || !(s.queue.push batch).1 }
    rw [same] at bounded
    rw [queued, same]
    refine ⟨sound.limits, bounded, ?_, ?_, sound.delivered.trans more,
      ⟨?_, ?_, ?_⟩, ?_, ?_⟩
    · rw [sound.whole fine]
      exact List.prefix_rfl
    · intro _
      show s.accepted ++ [batch] = s.offered ++ [batch]
      rw [sound.whole fine]
    · intro frame holds
      exact (sound.placed.held frame holds).trans more
    · intro _ active settled
      show (s.accepted ++ [batch]).flatten =
        s.written ++ (s.queue.frames ++ batch)
      rw [List.flatten_append, sound.placed.left intact active settled]
      simp
    · intro _ frame ends
      obtain ⟨rest, head, left⟩ := sound.placed.done intact frame ends
      refine ⟨rest ++ batch, ?_, ?_⟩
      · show s.queue.frames ++ batch = frame :: (rest ++ batch)
        rw [head]
        rfl
      · show (s.accepted ++ [batch]).flatten = s.written ++ (rest ++ batch)
        rw [List.flatten_append, left]
        simp
    · intro any
      have before : s.refused = true := by simpa using any
      exact absurd (sound.refused before) (by simp [fine])
    · intro cleared
      cases intact.symm.trans cleared
  · show Sound limits { s with
      queue := (s.queue.push batch).2
      offered := s.offered ++ [batch]
      accepted := if (s.queue.push batch).1 then s.accepted ++ [batch]
        else s.accepted
      refused := s.refused || !(s.queue.push batch).1 }
    rw [same] at bounded
    rw [refused, same]
    refine ⟨sound.limits, bounded, sound.ordered.trans (List.prefix_append _ _),
      nofun, sound.delivered, ⟨sound.placed.held, sound.placed.left,
      sound.placed.done⟩, fun _ => rfl, ?_⟩
    intro cleared
    exact ⟨(sound.cleared cleared).1, rfl⟩

theorem Sound.clear : (s.apply .clear).Sound limits := by
  refine ⟨sound.limits, s.queue.clear_bounded, sound.ordered, nofun,
    sound.delivered, ⟨sound.placed.held, nofun, nofun⟩, fun _ => rfl,
    fun _ => ⟨rfl, rfl⟩⟩

theorem Sound.apply (enabled : s.Enabled op) : (s.apply op).Sound limits := by
  cases op with
  | push batch => exact sound.push batch
  | clear => exact sound.clear
  | fence revision fence =>
    have here : s.consumer = .preparing := enabled
    exact sound.move _ rfl rfl (.inr (by simp [here, Consumer.finished]))
  | take =>
    obtain ⟨sent, fence, here, -⟩ := enabled
    unfold LinkRun.apply
    rw [here]
    exact sound.look (by simp [here]) (by simp [here, Consumer.finished])
      (fun _ => rfl) (fun _ => rfl)
  | send =>
    obtain ⟨frame, sent, fence, here⟩ := enabled
    unfold LinkRun.apply
    rw [here]
    dsimp only
    split
    · exact sound.deliver (by simp [here, Consumer.held]) (by simp [here])
        (by simp [here, Consumer.finished]) rfl rfl
    · exact sound.giveUp
  | doneSent =>
    obtain ⟨frame, sent, fence, here⟩ := enabled
    unfold LinkRun.apply
    rw [here]
    exact sound.done (by simp [here, Consumer.finished]) rfl rfl
  | finish =>
    obtain ⟨sent, fence, here, -⟩ := enabled
    exact sound.move _ rfl rfl (.inr (by simp [here, Consumer.finished]))
  | start =>
    have here : s.consumer = .registered := enabled
    exact sound.move _ rfl rfl (.inr (by simp [here, Consumer.finished]))
  | peek =>
    have here : s.consumer = .looping := enabled
    unfold LinkRun.apply
    rw [here]
    exact sound.look (by simp [here]) (by simp [here, Consumer.finished])
      (fun _ => rfl) (fun _ => rfl)
  | write =>
    obtain ⟨frame, here⟩ := enabled
    unfold LinkRun.apply
    rw [here]
    exact sound.deliver (by simp [here, Consumer.held]) (by simp [here])
      (by simp [here, Consumer.finished]) rfl rfl
  | doneWritten =>
    obtain ⟨frame, here⟩ := enabled
    unfold LinkRun.apply
    rw [here]
    exact sound.done (by simp [here, Consumer.finished]) rfl rfl
  | giveUp => exact sound.giveUp

end

theorem reachable_sound (reachable : (system limits).Reachable s) :
    s.Sound limits := by
  apply reachable.invariant
  · intro state initial
    rw [initial]
    exact new_sound limits
  · rintro before after - sound ⟨op, enabled, rfl⟩
    exact sound.apply enabled

/-! ## Failures -/

theorem push_of_failed {queue : LinkQueue} (failed : queue.failed = true)
    (batch : List BackedFrame) : queue.push batch = (false, queue) := by
  unfold LinkQueue.push ControlQueue.push
  rw [failed, if_pos rfl]

/-- After a failure the consumer gets no further frame. -/
theorem look_of_failed (failed : s.queue.failed = true) :
    s.look hold = { s with consumer := .returned } := by
  unfold LinkRun.look
  rw [failed, if_pos rfl]

/-- A consumer that has returned stays so and writes nothing. -/
theorem apply_of_returned (ended : s.consumer = .returned)
    (enabled : s.Enabled op) :
    (s.apply op).consumer = .returned ∧ (s.apply op).written = s.written := by
  cases op with
  | push | clear => exact ⟨ended, rfl⟩
  | giveUp => exact ⟨rfl, rfl⟩
  | fence | start | peek => cases ended.symm.trans enabled
  | take | finish =>
    obtain ⟨sent, fence, here, -⟩ := enabled
    cases ended.symm.trans here
  | send | doneSent =>
    obtain ⟨frame, sent, fence, here⟩ := enabled
    cases ended.symm.trans here
  | write | doneWritten =>
    obtain ⟨frame, here⟩ := enabled
    cases ended.symm.trans here

/-- In every state of every run: the queue counts its frames and keeps its
limits; a batch is queued whole or not at all; what was written is a prefix of
the batches in the order of their pushes; after a refusal nothing is queued
and the next look at the queue ends the consumer, which then writes nothing;
and a cleared queue is empty. -/
theorem link_delivery (reachable : (system limits).Reachable s) :
    s.queue.bytes = capacities s.queue.frames ∧
    s.queue.frames.length ≤ limits.maxControlQueueMessages ∧
    s.queue.bytes ≤ limits.maxControlQueueBytes ∧
    (∀ batch, ((s.apply (.push batch)).queue.frames = s.queue.frames ++ batch ∧
        (s.apply (.push batch)).accepted = s.accepted ++ [batch]) ∨
      ((s.apply (.push batch)).queue.frames = s.queue.frames ∧
        (s.apply (.push batch)).accepted = s.accepted ∧
        (s.apply (.push batch)).refused = true)) ∧
    s.written <+: s.accepted.flatten ∧ s.accepted <+: s.offered ∧
    (s.refused = true → (∀ batch, (s.apply (.push batch)).queue = s.queue ∧
        (s.apply (.push batch)).accepted = s.accepted) ∧
      (s.Enabled .take → (s.apply .take).consumer = .returned) ∧
      (s.Enabled .peek → (s.apply .peek).consumer = .returned)) ∧
    (s.consumer = .returned → ∀ later, (system limits).Reaches s later →
      later.consumer = .returned ∧ later.written = s.written) ∧
    (s.cleared = true → s.queue.frames = [] ∧ s.queue.bytes = 0) := by
  have sound := reachable_sound reachable
  refine ⟨sound.bounded.bytes, ?_, ?_, ?_, sound.delivered, sound.ordered, ?_,
    ?_, ?_⟩
  · rw [← sound.limits.1]
    exact sound.bounded.count
  · rw [← sound.limits.2]
    exact sound.bounded.size
  · intro batch
    unfold LinkRun.apply
    rcases s.queue.push_cases batch with ⟨queued, -, same, -, -⟩ |
      ⟨refused, same⟩
    · left
      simp [queued, same]
    · right
      simp [refused, same]
  · intro refused
    have failed := sound.refused refused
    refine ⟨?_, ?_, ?_⟩
    · intro batch
      unfold LinkRun.apply
      simp [push_of_failed failed]
    · rintro ⟨sent, fence, here, -⟩
      unfold LinkRun.apply
      rw [here]
      dsimp only
      rw [look_of_failed failed]
    · intro here
      have looping : s.consumer = .looping := here
      unfold LinkRun.apply
      rw [looping]
      dsimp only
      rw [look_of_failed failed]
  · intro ended later reaches
    induction reaches with
    | refl => exact ⟨ended, rfl⟩
    | tail _ step ih =>
      obtain ⟨op, enabled, rfl⟩ := step
      obtain ⟨still, same⟩ := apply_of_returned ih.1 enabled
      exact ⟨still, same.trans ih.2⟩
  · intro cleared
    have empty := (sound.cleared cleared).1
    refine ⟨empty, ?_⟩
    rw [sound.bounded.bytes, empty]
    rfl

/-! ## A run -/

def sampleLinkLimits : MeshLimits :=
  { maxGroups := 4, maxGroupDeclarationBytes := 16
    maxTotalGroupDeclarationBytes := 64, maxPathsPerGroup := 2
    maxTotalPaths := 4, maxPathHops := 2, maxControlQueueMessages := 2
    maxControlQueueBytes := 16 }

/-- Two frames of one declaration. -/
def sampleBatch : List BackedFrame :=
  [⟨100, 6, ⟨8, false, [1]⟩⟩, ⟨200, 6, ⟨8, true, [2]⟩⟩]

/-- The first frame is on the stream when a third one is refused. -/
def sampleLinkOps : List LinkOp :=
  [.push sampleBatch, .fence 7 8, .take, .send,
    .push [⟨300, 6, ⟨9, true, [3]⟩⟩]]

theorem link_delivery_sample :
    let s := sampleLinkOps.foldl LinkRun.apply (LinkRun.new sampleLinkLimits)
    s.written = [⟨100, 6, ⟨8, false, [1]⟩⟩] ∧ s.refused = true ∧
      s.written <+: s.accepted.flatten ∧
      s.queue.bytes = capacities s.queue.frames := by
  intro s
  have reachable : (system sampleLinkLimits).Reachable s := by
    have first := TransitionSystem.Reachable.start
      (show (system sampleLinkLimits).initial (LinkRun.new sampleLinkLimits)
        from rfl)
    have pushed := first.next ⟨.push sampleBatch, List.cons_ne_nil _ _, rfl⟩
    have fenced := pushed.next ⟨.fence 7 8, rfl, rfl⟩
    have taken := fenced.next ⟨.take, ⟨7, 8, rfl, by decide⟩, rfl⟩
    have sent := taken.next ⟨.send, ⟨_, _, _, rfl⟩, rfl⟩
    exact sent.next ⟨.push [⟨300, 6, ⟨9, true, [3]⟩⟩],
      List.cons_ne_nil _ _, rfl⟩
  have delivery := link_delivery reachable
  exact ⟨rfl, rfl, delivery.2.2.2.2.1, delivery.1⟩

end LinkRun

end QMux.Mesh
