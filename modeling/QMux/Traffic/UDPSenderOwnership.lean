import QMux.Traffic.UDPSender

/-!
# Ownership of queued datagrams

Every buffer that is not in the pool is in the reader's hands, in the queue of
one sender or with its worker, and the counter of a sender counts the
datagrams in its queue and with its worker.  From this and the order of the
queue follow the bounds, the order of delivery and the state a finished sender
leaves behind.
-/

namespace QMux.Traffic.Sending

open Support Pool SendHandler

namespace Worker

/-- The batch the worker still has to take off the counter. -/
def counted : Worker → Nat
  | .taken batch => batch.frames
  | .sending batch _ => batch.frames
  | .releasing batch _ => batch.frames
  | _ => 0

/-- The buffers the worker has yet to return. -/
def holds : Worker → List BufferRef
  | .taken batch => batch.datagrams
  | .sending batch _ => batch.datagrams
  | .releasing batch _ => batch.datagrams
  | .returning batch _ => batch.datagrams
  | _ => []

/-- The datagrams of its batch the worker may still send. -/
def pending : Worker → List BufferRef
  | .taken batch => batch.datagrams
  | .sending _ rest => rest
  | _ => []

/-- The worker has emptied the queue for good. -/
def drained : Worker → Bool
  | .waiting => true
  | .leaving => true
  | .finished => true
  | _ => false

/-- The worker has not called `failSender`. -/
def inLoop : Worker → Bool
  | .selecting => true
  | .taken _ => true
  | .sending _ _ => true
  | .releasing _ _ => true
  | .returning _ _ => true
  | _ => false

/-- The worker is on its way out of `runSender`. -/
def ending : Worker → Bool
  | .releasing _ .finish => true
  | .returning _ .finish => true
  | .failing false => true
  | .draining false => true
  | .leaving => true
  | .finished => true
  | _ => false

end Worker

/-- The datagrams in a queue. -/
def queuedFrames (queue : List UDPSendBatch) : Nat :=
  (queue.map UDPSendBatch.frames).sum

/-- The buffers of a list of batches. -/
def bufferList (batches : List UDPSendBatch) : List BufferRef :=
  batches.flatMap UDPSendBatch.datagrams

@[simp] theorem queuedFrames_nil : queuedFrames [] = 0 := rfl

@[simp] theorem queuedFrames_cons (batch : UDPSendBatch)
    (rest : List UDPSendBatch) :
    queuedFrames (batch :: rest) = batch.frames + queuedFrames rest := by
  simp [queuedFrames]

@[simp] theorem queuedFrames_append (front back : List UDPSendBatch) :
    queuedFrames (front ++ back) = queuedFrames front + queuedFrames back := by
  simp [queuedFrames]

@[simp] theorem bufferList_nil : bufferList [] = [] := rfl

@[simp] theorem bufferList_cons (batch : UDPSendBatch)
    (rest : List UDPSendBatch) :
    bufferList (batch :: rest) = batch.datagrams ++ bufferList rest := by
  simp [bufferList]

@[simp] theorem bufferList_append (front back : List UDPSendBatch) :
    bufferList (front ++ back) = bufferList front ++ bufferList back := by
  simp [bufferList]

theorem length_le_queuedFrames {queue : List UDPSendBatch}
    (nonempty : ∀ batch ∈ queue, batch.datagrams ≠ []) :
    queue.length ≤ queuedFrames queue := by
  induction queue with
  | nil => exact Nat.le_refl 0
  | cons batch rest ih =>
    have later := ih fun other member =>
      nonempty other (List.mem_cons_of_mem batch member)
    have some : 0 < batch.frames := by
      apply List.length_pos_iff.mpr
      exact nonempty batch List.mem_cons_self
    rw [List.length_cons, queuedFrames_cons]
    omega

namespace UDPSender

variable {sender : UDPSender} {limit : Nat}

/-- The buffers a sender owns, in the order it returns them. -/
def buffers (sender : UDPSender) : List BufferRef :=
  sender.worker.holds ++ bufferList sender.queue

/-- The queue, the worker and the counter of a sender agree. -/
structure Sound (limit : Nat) (sender : UDPSender) : Prop where
  capacity : sender.capacity = limit
  owned : sender.ownedFrames = queuedFrames sender.queue + sender.worker.counted
  bound : sender.ownedFrames ≤ limit
  nonempty : ∀ batch ∈ sender.queue, batch.datagrams ≠ []
  ordered : ∃ gone, sender.accepted = gone ++ sender.queue ∧
    (sender.sent ++ sender.worker.pending).Sublist (bufferList gone)
  stoppedDraining : ∀ terminal, sender.worker = .draining terminal →
    sender.stopped = true
  drained : sender.worker.drained = true →
    sender.queue = [] ∧ sender.stopped = true

/-- A step of a sender that returns `buffers`: nothing is lost or accepted. -/
structure Keeps (limit : Nat) (sender : UDPSender) (buffers : List BufferRef)
    (next : UDPSender) : Prop where
  sound : next.Sound limit
  conserved : ∀ buffer, sender.buffers.count buffer =
    buffers.count buffer + next.buffers.count buffer
  client : next.client = sender.client
  accepted : next.accepted = sender.accepted
  stopped : sender.stopped = true → next.stopped = true

theorem Keeps.trans {front back : List BufferRef} {middle last : UDPSender}
    (first : sender.Keeps limit front middle)
    (second : middle.Keeps limit back last) :
    sender.Keeps limit (front ++ back) last where
  sound := second.sound
  conserved buffer := by
    rw [first.conserved, second.conserved, List.count_append, Nat.add_assoc]
  client := second.client.trans first.client
  accepted := second.accepted.trans first.accepted
  stopped := second.stopped ∘ first.stopped

theorem sound_new (client : ConnRef) (limit : Nat) :
    (new client limit).Sound limit where
  capacity := rfl
  owned := rfl
  bound := Int.natCast_nonneg limit
  nonempty := by
    intro batch member
    cases member
  ordered := ⟨[], rfl, .slnil⟩
  stoppedDraining := by
    intro terminal draining
    cases draining
  drained := by
    intro drained
    cases drained

variable {batch : UDPSendBatch} {worker : Worker} {after : AfterBatch}
  {outcome : SendOutcome}

/-- Room for a batch in the counter is room for it in the channel. -/
theorem Sound.room (sound : sender.Sound limit) (some : batch.datagrams ≠ [])
    (fits : ¬ (batch.frames : Int) > limit - sender.ownedFrames) :
    sender.queue.length < sender.capacity := by
  have positive : 0 < batch.frames := List.length_pos_iff.mpr some
  have queued := length_le_queuedFrames sound.nonempty
  have owned := sound.owned
  rw [sound.capacity]
  omega

/-- The sender with a batch it accepted. -/
def accepting (sender : UDPSender) (batch : UDPSendBatch) : UDPSender :=
  { sender with
    ownedFrames := sender.ownedFrames + batch.frames
    queue := sender.queue ++ [batch]
    accepted := sender.accepted ++ [batch] }

theorem Sound.accepting (sound : sender.Sound limit)
    (some : batch.datagrams ≠ []) (running : sender.stopped = false)
    (fits : ¬ (batch.frames : Int) > limit - sender.ownedFrames) :
    (sender.accepting batch).Sound limit := by
  obtain ⟨gone, accepted, sent⟩ := sound.ordered
  have owned := sound.owned
  refine { sound with
    owned := ?_, bound := ?_, nonempty := ?_, ordered := ?_, drained := ?_ }
  · simp only [UDPSender.accepting, queuedFrames_append, queuedFrames_cons,
      queuedFrames_nil]
    omega
  · simp only [UDPSender.accepting]
    omega
  · intro other member
    rcases List.mem_append.mp member with before | new
    · exact sound.nonempty other before
    · rw [List.mem_singleton.mp new]
      exact some
  · refine ⟨gone, ?_, sent⟩
    simp only [UDPSender.accepting]
    rw [accepted, List.append_assoc]
  · intro drained
    have stopped := (sound.drained drained).2
    rw [running] at stopped
    cases stopped

theorem count_accepting (batch : UDPSendBatch) (buffer : BufferRef) :
    (sender.accepting batch).buffers.count buffer =
      sender.buffers.count buffer + batch.datagrams.count buffer := by
  simp only [buffers, UDPSender.accepting, bufferList_append,
    bufferList_cons, bufferList_nil, List.append_nil, List.count_append]
  omega

/-- `enqueueSenderLocked` refuses and leaves the sender alone, or accepts the
batch at the end of the queue. -/
theorem enqueueSenderLocked_cases (sender : UDPSender) (limit : Nat)
    (batch : UDPSendBatch) :
    ((sender.enqueueSenderLocked limit batch).1 ≠ .udpEnqueued ∧
      (sender.enqueueSenderLocked limit batch).2 = sender) ∨
    (sender.stopped = false ∧
      ¬ (batch.frames : Int) > limit - sender.ownedFrames ∧
      sender.enqueueSenderLocked limit batch =
        (.udpEnqueued, sender.accepting batch)) := by
  unfold enqueueSenderLocked
  by_cases stopped : sender.stopped = true
  · simp [stopped]
  by_cases full : (batch.frames : Int) > limit - sender.ownedFrames
  · simp [stopped, full]
  by_cases room : sender.queue.length < sender.capacity
  · simp [stopped, full, room, UDPSender.accepting]
  · rw [if_neg stopped, if_neg full]
    dsimp only
    rw [if_neg room]
    exact .inl ⟨by simp, by rw [add_sub_cancel_right]⟩

section

variable (sound : sender.Sound limit)

include sound

/-! ## The worker -/

theorem Sound.move (worker : Worker)
    (before : sender.worker.holds = [] ∧ sender.worker.counted = 0 ∧
      sender.worker.pending = [])
    (after : worker.holds = [] ∧ worker.counted = 0 ∧ worker.pending = [])
    (draining : ∀ terminal, worker = .draining terminal → sender.stopped = true)
    (drained : worker.drained = true →
      sender.queue = [] ∧ sender.stopped = true) :
    sender.Keeps limit [] { sender with worker := worker } := by
  obtain ⟨gone, accepted, sent⟩ := sound.ordered
  constructor
  · refine { sound with
      owned := ?_, ordered := ⟨gone, accepted, ?_⟩
      stoppedDraining := draining, drained := drained }
    · dsimp only
      rw [sound.owned, before.2.1, after.2.1]
    · rw [before.2.2] at sent
      rw [after.2.2]
      exact sent
  · intro buffer
    simp [buffers, before.1, after.1]
  · rfl
  · rfl
  · exact id

theorem Sound.receive (selecting : sender.worker = .selecting) :
    sender.Keeps limit [] sender.receive := by
  obtain ⟨gone, accepted, sent⟩ := sound.ordered
  have owned := sound.owned
  rw [selecting] at sent owned
  unfold UDPSender.receive
  split
  · rename_i empty
    refine ⟨sound, ?_, rfl, rfl, id⟩
    intro buffer
    simp
  rename_i batch rest queue
  rw [queue] at accepted owned
  constructor
  · refine { sound with
      owned := ?_, nonempty := ?_, ordered := ⟨gone ++ [batch], ?_, ?_⟩
      stoppedDraining := ?_, drained := ?_ }
    · simp only [queuedFrames_cons, Worker.counted] at owned ⊢
      omega
    · intro other member
      apply sound.nonempty other
      rw [queue]
      exact List.mem_cons_of_mem batch member
    · rw [accepted, List.append_assoc]
      rfl
    · simp only [Worker.pending, List.append_nil] at sent ⊢
      rw [bufferList_append, bufferList_cons, bufferList_nil, List.append_nil]
      exact sent.append (List.Sublist.refl _)
    · intro terminal draining
      cases draining
    · intro drained
      cases drained
  · intro buffer
    simp only [buffers, queue, selecting, Worker.holds, bufferList_cons,
      List.count_append, List.count_nil]
  · rfl
  · rfl
  · exact id

theorem Sound.drain : sender.Keeps limit sender.drain.1 sender.drain.2 := by
  obtain ⟨gone, accepted, sent⟩ := sound.ordered
  have owned := sound.owned
  have bound := sound.bound
  unfold UDPSender.drain
  split
  · refine ⟨sound, ?_, rfl, rfl, id⟩
    intro buffer
    simp
  · rename_i batch rest queue
    rw [queue] at accepted owned
    constructor
    · refine { sound with
        owned := ?_, bound := ?_, nonempty := ?_
        ordered := ⟨gone ++ [batch], ?_, ?_⟩, drained := ?_ }
      · simp only [queuedFrames_cons] at owned ⊢
        omega
      · dsimp only
        omega
      · intro other member
        apply sound.nonempty other
        rw [queue]
        exact List.mem_cons_of_mem batch member
      · rw [accepted, List.append_assoc]
        rfl
      · rw [bufferList_append]
        exact sent.trans (List.sublist_append_left _ _)
      · intro drained
        have empty := (sound.drained drained).1
        rw [queue] at empty
        cases empty
    · intro buffer
      simp only [buffers, queue, bufferList_cons, List.count_append]
      omega
    · rfl
    · rfl
    · exact id

theorem Sound.stop (holder : Holder) :
    sender.Keeps limit [] (sender.stop holder) := by
  refine ⟨{ sound with stoppedDraining := ?_, drained := ?_ }, ?_, rfl, rfl,
    fun _ => rfl⟩
  · intro _ _
    rfl
  · intro drained
    exact ⟨(sound.drained drained).1, rfl⟩
  · intro buffer
    simp [buffers, UDPSender.stop]

theorem Sound.keeps_self : sender.Keeps limit [] sender := by
  refine ⟨sound, ?_, rfl, rfl, id⟩
  intro buffer
  simp

theorem Sound.unlock : sender.Keeps limit [] { sender with mu := none } := by
  refine ⟨{ sound with }, ?_, rfl, rfl, id⟩
  intro buffer
  simp [buffers]

theorem Sound.carry {sent : List BufferRef}
    (holds : worker.holds = sender.worker.holds)
    (counted : worker.counted = sender.worker.counted)
    (sending : (sent ++ worker.pending).Sublist
      (sender.sent ++ sender.worker.pending))
    (notDraining : ∀ terminal, worker ≠ .draining terminal)
    (notDrained : worker.drained = false) :
    sender.Keeps limit [] { sender with worker := worker, sent := sent } := by
  obtain ⟨gone, accepted, before⟩ := sound.ordered
  constructor
  · refine { sound with
      owned := ?_, ordered := ⟨gone, accepted, sending.trans before⟩
      stoppedDraining := ?_, drained := ?_ }
    · dsimp only
      rw [sound.owned, counted]
    · intro terminal draining
      exact absurd draining (notDraining terminal)
    · intro drained
      rw [notDrained] at drained
      cases drained
  · intro buffer
    simp [buffers, holds]
  · rfl
  · rfl
  · exact id

end

-- Where the worker is known, what it counts and holds computes.
attribute [simp] Worker.counted Worker.pending Worker.holds Worker.drained
  Worker.inLoop

theorem Sound.release (sound : sender.Sound limit)
    (at_ : sender.worker = .releasing batch after) :
    sender.Keeps limit [] { sender with
      ownedFrames := sender.ownedFrames - batch.frames
      worker := .returning batch after } := by
  obtain ⟨gone, accepted, sent⟩ := sound.ordered
  have owned := sound.owned
  have bound := sound.bound
  rw [at_] at owned sent
  constructor
  · refine { sound with
      owned := ?_, bound := ?_, ordered := ⟨gone, accepted, sent⟩
      stoppedDraining := ?_, drained := ?_ }
    · simp only [Worker.counted] at owned ⊢
      omega
    · dsimp only
      omega
    · intro terminal draining
      cases draining
    · intro drained
      cases drained
  · intro buffer
    simp [buffers, at_]
  · rfl
  · rfl
  · exact id

theorem Sound.giveBack (sound : sender.Sound limit)
    (at_ : sender.worker = .returning batch after)
    (empty : worker.holds = [] ∧ worker.counted = 0 ∧ worker.pending = [])
    (notDraining : ∀ terminal, worker ≠ .draining terminal)
    (notDrained : worker.drained = false) :
    sender.Keeps limit batch.datagrams { sender with worker := worker } := by
  obtain ⟨gone, accepted, sent⟩ := sound.ordered
  have owned := sound.owned
  rw [at_] at owned sent
  constructor
  · refine { sound with
      owned := ?_, ordered := ⟨gone, accepted, ?_⟩
      stoppedDraining := ?_, drained := ?_ }
    · dsimp only
      rw [owned, empty.2.1]
      rfl
    · rw [empty.2.2]
      exact sent
    · intro terminal draining
      exact absurd draining (notDraining terminal)
    · intro drained
      rw [notDrained] at drained
      cases drained
  · intro buffer
    have held : sender.worker.holds = batch.datagrams := by
      rw [at_]
      rfl
    simp only [buffers, held, empty.1, List.count_nil, List.count_append]
    omega
  · rfl
  · rfl
  · exact id

theorem Sound.work (sound : sender.Sound limit) (outcome : SendOutcome) :
    sender.Keeps limit (sender.work outcome).1 (sender.work outcome).2 := by
  unfold UDPSender.work
  cases at_ : sender.worker with
  | selecting | waiting | leaving | finished => exact sound.keeps_self
  | taken batch =>
    dsimp only
    split
    all_goals apply sound.carry <;> simp [at_]
  | sending batch rest =>
    cases rest with
    | nil =>
      apply sound.carry <;> simp [at_]
    | cons datagram rest =>
      cases outcome <;> apply sound.carry <;> simp [at_]
  | releasing batch after => exact sound.release at_
  | returning batch after =>
    cases after <;> apply sound.giveBack at_ <;> simp
  | failing terminal =>
    have stopped := sound.stop .worker
    have before : (sender.stop .worker).worker.holds = [] ∧
        (sender.stop .worker).worker.counted = 0 ∧
        (sender.stop .worker).worker.pending = [] := by
      simp [UDPSender.stop, at_]
    have moved := stopped.sound.move (.draining terminal) before
      ⟨rfl, rfl, rfl⟩ (fun _ _ => rfl) (by simp)
    exact stopped.trans moved
  | draining terminal =>
    dsimp only
    split
    · rename_i queue
      have stopped := sound.stoppedDraining terminal at_
      have idle : sender.worker.holds = [] ∧ sender.worker.counted = 0 ∧
          sender.worker.pending = [] := by
        simp [at_]
      have unlocked := sound.unlock
      cases terminal with
      | false =>
        exact unlocked.trans (unlocked.sound.move .leaving idle
          ⟨rfl, rfl, rfl⟩ (by simp) (fun _ => ⟨queue, stopped⟩))
      | true =>
        exact unlocked.trans (unlocked.sound.move .waiting idle
          ⟨rfl, rfl, rfl⟩ (by simp) (fun _ => ⟨queue, stopped⟩))
    · exact sound.drain

theorem work_inLoop (inLoop : (sender.work outcome).2.worker.inLoop = true)
    (stopped : (sender.work outcome).2.stopped = true) :
    sender.worker.inLoop = true ∧ sender.stopped = true := by
  unfold work at inLoop stopped
  cases at_ : sender.worker with
  | failing | waiting | leaving | finished => simp [at_] at inLoop
  | draining terminal =>
    rw [at_] at inLoop
    dsimp only at inLoop
    split at inLoop
    · cases terminal <;> simp at inLoop
    · unfold drain at inLoop
      split at inLoop <;> simp [at_] at inLoop
  | sending batch rest =>
    rw [at_] at stopped
    cases rest <;> exact ⟨rfl, stopped⟩
  | taken | releasing | returning | selecting =>
    rw [at_] at stopped
    exact ⟨rfl, stopped⟩

theorem work_ending (ending : (sender.work outcome).2.worker.ending = true) :
    sender.worker.ending = true ∨
      (sender.worker.inLoop = true ∧ sender.stopped = true) := by
  unfold work at ending
  cases at_ : sender.worker with
  | taken batch =>
    rw [at_] at ending
    dsimp only at ending
    split at ending
    · rename_i stopped
      exact .inr ⟨rfl, stopped⟩
    · cases ending
  | sending batch rest =>
    rw [at_] at ending
    cases rest with
    | nil => cases ending
    | cons datagram rest => cases outcome <;> cases ending
  | releasing batch after | returning batch after =>
    rw [at_] at ending
    cases after <;> first | exact .inl rfl | cases ending
  | failing terminal =>
    rw [at_] at ending
    cases terminal <;> first | exact .inl rfl | cases ending
  | draining terminal =>
    rw [at_] at ending
    cases terminal with
    | false => exact .inl rfl
    | true =>
      dsimp only at ending
      split at ending
      · cases ending
      · unfold drain at ending
        split at ending <;> simp [at_, Worker.ending] at ending
  | selecting | waiting => simp [at_, Worker.ending] at ending
  | leaving | finished => exact .inl rfl

end UDPSender

/-- The buffers in the reader's hands. -/
def Reader.holds : Reader → List BufferRef
  | .locking _ _ batch => batch.datagrams
  | .releasing batch => batch.datagrams
  | _ => []

namespace SendHandler

variable {h : SendHandler} {ref : SenderRef} {sender : UDPSender}

/-- Every buffer is in exactly one place. -/
structure Owned (h : SendHandler) : Prop where
  sound : ∀ (ref : SenderRef) (sender : UDPSender),
    h.cells[ref]? = some sender → sender.Sound h.senderFrameLimit
  batch : ∀ session sender batch,
    h.reader = .locking session sender batch → batch.datagrams ≠ []
  buffers : ∀ buffer : Nat, (h.returned.count buffer : Int) +
      h.reader.holds.count buffer +
      (h.cells.map fun sender => (sender.buffers.count buffer : Int)).sum =
    if buffer < h.nextBuffer then 1 else 0

/-- A worker in its loop finds its sender stopped only by `close`, and leaves
only when the listener closes or a context ends. -/
def Excused (h : SendHandler) (sender : UDPSender) : Prop :=
  (sender.worker.inLoop = true → sender.stopped = true → h.closed = true) ∧
    (sender.worker.ending = true →
      h.closed = true ∨ h.ended sender.client = true)

/-- A generation has one sender, which leaves only when no other can be
created. -/
structure Registered (h : SendHandler) : Prop where
  present : ∀ (ref : SenderRef) (sender : UDPSender),
    h.cells[ref]? = some sender →
      h.senders.get sender.client = some ref ∨ h.closed = true ∨
        h.ended sender.client = true
  single : ∀ (first second : SenderRef) (left right : UDPSender),
    h.cells[first]? = some left → h.cells[second]? = some right →
      left.client = right.client → first = second
  excused : ∀ (ref : SenderRef) (sender : UDPSender),
    h.cells[ref]? = some sender → h.Excused sender
  closing : h.closer.holdsLifecycle = true → h.closed = true

variable {next : UDPSender} {session : SessionRef} {frames : Option Nat}

theorem Owned.set (owned : h.Owned) (found : h.cells[ref]? = some sender)
    {buffers : List BufferRef}
    (keeps : sender.Keeps h.senderFrameLimit buffers next) :
    ((h.setCell ref next).putBuffers buffers).Owned := by
  refine ⟨?_, owned.batch, ?_⟩
  · intro other held there
    rcases cases_set found there with ⟨_, rfl⟩ | ⟨_, before⟩
    · exact keeps.sound
    · exact owned.sound other held before
  · intro buffer
    have before := owned.buffers buffer
    have conserved := keeps.conserved buffer
    refine Eq.trans ?_ before
    change ((h.returned ++ buffers).count buffer : Int) + _ +
      ((h.cells.set ref next).map _).sum = _
    rw [sum_map_set_eq _ found, List.count_append]
    dsimp only [putBuffers, setCell]
    omega

@[simp] theorem putBuffers_nil (h : SendHandler) : h.putBuffers [] = h := by
  simp [putBuffers]

theorem Registered.set (registered : h.Registered)
    (found : h.cells[ref]? = some sender)
    (client : next.client = sender.client) (excused : h.Excused next) :
    (h.setCell ref next).Registered := by
  have cell : ∀ {other : SenderRef} {held : UDPSender},
      (h.cells.set ref next)[other]? = some held →
      ∃ old, h.cells[other]? = some old ∧ held.client = old.client := by
    intro other held there
    rcases cases_set found there with ⟨rfl, rfl⟩ | ⟨_, before⟩
    · exact ⟨sender, found, client⟩
    · exact ⟨held, before, rfl⟩
  constructor
  · intro other held there
    obtain ⟨old, before, same⟩ := cell there
    rw [same]
    exact registered.present other old before
  · intro first second left right foundLeft foundRight same
    obtain ⟨oldLeft, beforeLeft, sameLeft⟩ := cell foundLeft
    obtain ⟨oldRight, beforeRight, sameRight⟩ := cell foundRight
    apply registered.single first second oldLeft oldRight beforeLeft beforeRight
    rw [← sameLeft, ← sameRight, same]
  · intro other held there
    rcases cases_set found there with ⟨_, rfl⟩ | ⟨_, before⟩
    · exact excused
    · exact registered.excused other held before
  · exact registered.closing

/-! ## The reader -/

theorem Owned.goto (owned : h.Owned) {next : Reader}
    (before : h.reader.holds = []) (after : next.holds = [])
    (notLocking : ∀ session sender batch,
      next ≠ .locking session sender batch) : (h.goto next).Owned := by
  refine ⟨owned.sound, ?_, ?_⟩
  · intro session sender batch locking
    exact absurd locking (notLocking session sender batch)
  · intro buffer
    have balance := owned.buffers buffer
    rw [before] at balance
    change _ + ((next.holds).count buffer : Int) + _ = _
    rw [after]
    exact balance

theorem Owned.startSender (owned : h.Owned) (client : ConnRef) :
    (h.startSender client).Owned := by
  refine ⟨?_, owned.batch, ?_⟩
  · intro ref sender found
    rcases cases_append found with ⟨_, rfl⟩ | before
    · exact UDPSender.sound_new client h.senderFrameLimit
    · exact owned.sound ref sender before
  · intro buffer
    have none : (UDPSender.new client h.senderFrameLimit).buffers.count
        buffer = 0 := rfl
    refine Eq.trans ?_ (owned.buffers buffer)
    change _ + _ + ((h.cells ++ [_]).map _).sum = _
    rw [sum_map_append_singleton, none]
    dsimp only [SendHandler.startSender]
    omega

theorem Owned.choose (owned : h.Owned) (at_ : h.reader = .choosing session) :
    (h.choose session).Owned := by
  have empty : h.reader.holds = [] := by
    rw [at_]
    rfl
  have idle : (h.goto .idle).Owned := owned.goto empty rfl (by simp)
  have checking : ∀ sender, (h.goto (.checking session sender)).Owned :=
    fun sender => owned.goto empty rfl (by simp)
  unfold SendHandler.choose
  split
  · exact idle
  split
  · exact checking _
  dsimp only
  split
  · exact idle
  · split
    · exact checking _
    · exact (owned.startSender _).goto empty rfl (by simp)

theorem Owned.check (owned : h.Owned) {sender : SenderRef}
    (at_ : h.reader = .checking session sender) :
    (h.check session sender).Owned := by
  have empty : h.reader.holds = [] := by
    rw [at_]
    rfl
  unfold SendHandler.check
  split
  all_goals exact owned.goto empty rfl (by simp)

private theorem count_range' (start length buffer : Nat) :
    (List.range' start length).count buffer =
      if start ≤ buffer ∧ buffer < start + length then 1 else 0 := by
  have nodup : (List.range' start length).Nodup := List.nodup_range'
  split
  · rename_i inside
    exact List.count_eq_one_of_mem nodup (by simp; omega)
  · rename_i outside
    exact List.count_eq_zero_of_not_mem (by simp; omega)

theorem Owned.fragment (owned : h.Owned) {sender : SenderRef}
    (at_ : h.reader = .fragmenting session sender) (some : frames ≠ some 0) :
    (h.fragment session sender frames).Owned := by
  have empty : h.reader.holds = [] := by
    rw [at_]
    rfl
  unfold SendHandler.fragment
  split
  · exact owned.goto empty rfl (by simp)
  rename_i count
  refine ⟨owned.sound, ?_, ?_⟩
  · intro target ref batch locking
    cases locking
    intro none
    have length := congrArg List.length none
    simp only [List.length_range', List.length_nil] at length
    rw [length] at some
    exact some rfl
  · intro buffer
    have before := owned.buffers buffer
    rw [empty] at before
    change _ + ((List.range' h.nextBuffer count).count buffer : Int) + _ =
      if buffer < h.nextBuffer + count then 1 else 0
    rw [count_range']
    rw [List.count_nil] at before
    dsimp only [SendHandler.goto]
    by_cases older : buffer < h.nextBuffer
    · rw [if_pos older] at before
      rw [if_neg (by omega), if_pos (by omega)]
      omega
    rw [if_neg older] at before
    by_cases new : buffer < h.nextBuffer + count
    · rw [if_pos ⟨by omega, new⟩, if_pos new]
      omega
    · rw [if_neg (by omega), if_neg new]
      omega

theorem Owned.enqueue (owned : h.Owned) {batch : UDPSendBatch}
    (at_ : h.reader = .locking session ref batch) :
    (h.enqueue session ref batch).Owned := by
  have some := owned.batch session ref batch at_
  have kept : ∀ cells, cells = h.cells →
      ({ h with cells := cells }.goto (.releasing batch)).Owned := by
    rintro cells rfl
    refine ⟨owned.sound, ?_, ?_⟩
    · intro target ref batch locking
      cases locking
    · intro buffer
      have before := owned.buffers buffer
      rw [at_] at before
      exact before
  unfold SendHandler.enqueue
  cases found : h.cells[ref]? with
  | none => exact owned
  | some sender =>
    dsimp only
    split
    · exact kept _ rfl
    rcases sender.enqueueSenderLocked_cases h.senderFrameLimit batch with
      ⟨refused, unchanged⟩ | ⟨running, fits, accepted⟩
    · split
      · rename_i next result
        rw [result] at refused
        exact absurd rfl refused
      · rename_i next _ result
        rw [result] at unchanged
        cases unchanged
        exact kept _ (set_eq_self found)
    · rw [accepted]
      refine ⟨?_, ?_, ?_⟩
      · intro other held there
        rcases cases_set found there with ⟨_, rfl⟩ | ⟨_, before⟩
        · exact (owned.sound ref sender found).accepting some running fits
        · exact owned.sound other held before
      · intro target other batch locking
        cases locking
      · intro buffer
        have before := owned.buffers buffer
        rw [at_] at before
        refine Eq.trans ?_ before
        change _ + (([] : List BufferRef).count buffer : Int) +
          ((h.cells.set ref _).map _).sum = _
        rw [sum_map_set_eq _ found, UDPSender.count_accepting, List.count_nil]
        simp only [Reader.holds, SendHandler.goto, setCell]
        omega

theorem Owned.read (owned : h.Owned) (ready : h.readReady frames = true) :
    (h.read frames).Owned := by
  unfold SendHandler.read
  cases at_ : h.reader with
  | idle => exact owned
  | choosing session => exact owned.choose at_
  | checking session sender => exact owned.check at_
  | fragmenting session sender =>
    unfold readReady at ready
    rw [at_] at ready
    exact owned.fragment at_ (of_decide_eq_true ready)
  | locking session sender batch => exact owned.enqueue at_
  | releasing batch =>
    refine ⟨owned.sound, ?_, ?_⟩
    · intro target ref batch locking
      cases locking
    · intro buffer
      have before := owned.buffers buffer
      rw [at_] at before
      refine Eq.trans ?_ before
      change ((h.returned ++ batch.datagrams).count buffer : Int) +
        (([] : List BufferRef).count buffer : Int) + _ = _
      rw [List.count_append, List.count_nil]
      simp only [Reader.holds, SendHandler.goto, putBuffers]
      omega

/-- What a step of the reader does to the senders. -/
inductive Reads (h : SendHandler) : SendHandler → Prop
  | stays : Reads h h
  | starts (client : ConnRef) (vacant : h.senders.get client = none)
      (isOpen : (h.closed || h.ended client) = false) :
      Reads h (h.startSender client)
  | accepts {ref : SenderRef} {sender : UDPSender}
      (found : h.cells[ref]? = some sender)
      (running : sender.stopped = false) (batch : UDPSendBatch) :
      Reads h (h.setCell ref (sender.accepting batch))

theorem exists_reads (h : SendHandler) (frames : Option Nat) :
    ∃ base, h.Reads base ∧ ∃ attached reader nextBuffer returned,
      h.read frames = { base with
        attached := attached, reader := reader, nextBuffer := nextBuffer
        returned := returned } := by
  unfold read
  cases h.reader with
  | idle | releasing => exact ⟨h, .stays, _, _, _, _, rfl⟩
  | checking session target =>
    dsimp only
    unfold check
    split <;> exact ⟨h, .stays, _, _, _, _, rfl⟩
  | fragmenting session target =>
    dsimp only
    unfold fragment
    split <;> exact ⟨h, .stays, _, _, _, _, rfl⟩
  | choosing session =>
    dsimp only
    unfold choose
    split
    · exact ⟨h, .stays, _, _, _, _, rfl⟩
    split
    · exact ⟨h, .stays, _, _, _, _, rfl⟩
    dsimp only
    split
    · exact ⟨h, .stays, _, _, _, _, rfl⟩
    rename_i isOpen
    split
    · exact ⟨h, .stays, _, _, _, _, rfl⟩
    rename_i vacant
    exact ⟨_, .starts _ vacant (Bool.eq_false_iff.mpr isOpen), _, _, _, _, rfl⟩
  | locking session target batch =>
    dsimp only
    unfold enqueue
    cases found : h.cells[target]? with
    | none => exact ⟨h, .stays, _, _, _, _, rfl⟩
    | some sender =>
      dsimp only
      split
      · exact ⟨h, .stays, _, _, _, _, rfl⟩
      rcases sender.enqueueSenderLocked_cases h.senderFrameLimit batch with
        ⟨refused, unchanged⟩ | ⟨running, _, accepted⟩
      · split
        · rename_i next result
          rw [result] at refused
          exact absurd rfl refused
        · rename_i next _ result
          rw [result] at unchanged
          cases unchanged
          unfold setCell
          rw [set_eq_self found]
          exact ⟨h, .stays, _, _, _, _, rfl⟩
      · rw [accepted]
        exact ⟨_, .accepts found running batch, _, _, _, _, rfl⟩

/-! ## The workers and `close` -/

theorem Owned.update (owned : h.Owned)
    {step : UDPSender → List BufferRef × UDPSender}
    (keeps : ∀ sender, h.cells[ref]? = some sender →
      sender.Keeps h.senderFrameLimit (step sender).1 (step sender).2) :
    (h.update ref step).Owned := by
  unfold SendHandler.update
  cases found : h.cells[ref]? with
  | none => exact owned
  | some sender => exact owned.set found (keeps sender found)

theorem holds_of_at {holds : UDPSender → Bool}
    (ready : h.At ref holds = true) (found : h.cells[ref]? = some sender) :
    holds sender = true := by
  unfold At at ready
  rw [found] at ready
  exact ready

variable (owned : h.Owned)

include owned

theorem Owned.moveWorker
    (idle : ∀ sender, h.cells[ref]? = some sender →
      sender.worker.holds = [] ∧ sender.worker.counted = 0 ∧
        sender.worker.pending = []) :
    (h.moveWorker ref (.failing false)).Owned := by
  apply owned.update
  intro sender found
  exact (owned.sound ref sender found).move _ (idle sender found)
    ⟨rfl, rfl, rfl⟩ (by simp) (by simp)

theorem Owned.of_closer (closer : Closer) (closed cancelled : Bool)
    (closedConns : Finset ConnRef) :
    Owned { h with
      closer := closer, closed := closed, cancelled := cancelled
      closedConns := closedConns } :=
  ⟨owned.sound, owned.batch, owned.buffers⟩

theorem Owned.leave
    (leaving : h.At ref fun sender => decide (sender.worker = .leaving)) :
    (h.leave ref).Owned := by
  unfold SendHandler.leave
  cases found : h.cells[ref]? with
  | none => exact owned
  | some sender =>
    have at_ : sender.worker = .leaving :=
      of_decide_eq_true (holds_of_at leaving found)
    have sound := owned.sound ref sender found
    have moved := owned.set found (sound.move .finished
      (by simp [at_])
      ⟨rfl, rfl, rfl⟩ (by simp)
      (fun _ => sound.drained (by rw [at_]; rfl)))
    rw [putBuffers_nil] at moved
    dsimp only
    split
    · exact ⟨moved.sound, moved.batch, moved.buffers⟩
    · exact moved

theorem Owned.closeStep : h.closeStep.Owned := by
  unfold SendHandler.closeStep
  split
  · rename_i ref failed _
    have stopped : (h.update ref fun sender =>
        ([], sender.stop .closer)).Owned :=
      owned.update fun sender found =>
        (owned.sound ref sender found).stop .closer
    exact ⟨stopped.sound, stopped.batch, stopped.buffers⟩
  · rename_i ref failed _
    cases found : h.cells[ref]? with
    | none => exact owned
    | some sender =>
      dsimp only
      split
      · have unlocked := owned.set found (owned.sound ref sender found).unlock
        rw [putBuffers_nil] at unlocked
        exact ⟨unlocked.sound, unlocked.batch, unlocked.buffers⟩
      · exact owned.update fun sender found =>
          (owned.sound ref sender found).drain
  · exact owned

theorem Owned.step {op : SendOp} (enabled : h.Enabled op) :
    (h.apply op).Owned := by
  cases op with
  | closeConn | cancel | closeStarts | closeCancels =>
    exact owned.of_closer _ _ _ _
  | closeStep => exact owned.closeStep
  | leave ref => exact owned.leave enabled.2
  | read frames => exact owned.read enabled
  | packet session =>
    apply owned.goto _ rfl (by simp)
    rw [show h.reader = .idle from enabled]
    rfl
  | closeFails ref =>
    dsimp only [apply]
    split
    · exact owned.of_closer _ _ _ _
    · exact owned
  | receive ref =>
    dsimp only [apply]
    apply owned.update
    intro sender found
    exact (owned.sound ref sender found).receive
      (of_decide_eq_true (holds_of_at enabled found)).1
  | work ref outcome =>
    exact owned.update fun sender found =>
      (owned.sound ref sender found).work outcome
  | quit | wake =>
    apply owned.moveWorker
    intro sender found
    have ready := holds_of_at enabled found
    rw [of_decide_eq_true (Bool.and_eq_true_iff.mp ready).1]
    exact ⟨rfl, rfl, rfl⟩

end SendHandler

end QMux.Traffic.Sending
