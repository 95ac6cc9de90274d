import QMux.Traffic.UDPSenderProgress

/-!
# Runs of the senders

A sender is created only for a generation without one, and leaves the table
only when the listener closes or its connection ends, after which no sender is
created for the generation.  Together with the ownership of the buffers this
gives what holds of the senders in every run.
-/

namespace QMux.Traffic.Sending

open Support Pool SendHandler

namespace SendHandler

variable {h : SendHandler} {ref : SenderRef} {sender : UDPSender}

/-! ## One sender for a generation -/

variable {next : SendHandler} {op : SendOp} {target : SenderRef}

section

variable (registered : h.Registered)

include registered

theorem Registered.of_ended (cells : next.cells = h.cells)
    (senders : next.senders = h.senders)
    (closed : h.closed = true → next.closed = true)
    (ended : ∀ client, h.ended client = true → next.ended client = true)
    (closing : next.closer.holdsLifecycle = true → next.closed = true) :
    next.Registered := by
  constructor
  · rw [senders, cells]
    intro ref sender found
    exact (registered.present ref sender found).imp id
      (Or.imp closed (ended sender.client))
  · rw [cells]
    exact registered.single
  · rw [cells]
    intro ref sender found
    obtain ⟨stopped, ending⟩ := registered.excused ref sender found
    exact ⟨fun inLoop isStopped => closed (stopped inLoop isStopped),
      fun isEnding => (ending isEnding).imp closed (ended sender.client)⟩
  · exact closing

theorem Registered.startSender {client : ConnRef}
    (vacant : h.senders.get client = none)
    (open_ : (h.closed || h.ended client) = false) :
    (h.startSender client).Registered := by
  obtain ⟨notClosed, notEnded⟩ := Bool.or_eq_false_iff.mp open_
  -- a sender of the generation would be in the table
  have none : ∀ (ref : SenderRef) (sender : UDPSender),
      h.cells[ref]? = some sender → sender.client ≠ client := by
    intro ref sender found same
    have present := registered.present ref sender found
    rw [same, vacant, notClosed, notEnded] at present
    simp at present
  have cell : ∀ {ref : SenderRef} {sender : UDPSender},
      (h.startSender client).cells[ref]? = some sender →
      ref = h.cells.length ∧ sender = UDPSender.new client h.senderFrameLimit ∨
      h.cells[ref]? = some sender := cases_append
  constructor
  · intro ref sender found
    change (h.senders.put client h.cells.length).get _ = _ ∨ _
    rcases cell found with ⟨rfl, rfl⟩ | before
    · exact .inl (FiniteMap.get_put_self _ _ _)
    · rw [FiniteMap.get_put_of_ne _ _ (none ref sender before)]
      exact registered.present ref sender before
  · intro first second left right foundLeft foundRight same
    rcases cell foundLeft with ⟨rfl, rfl⟩ | beforeLeft
    · rcases cell foundRight with ⟨rfl, rfl⟩ | beforeRight
      · rfl
      · exact absurd same.symm (none second right beforeRight)
    · rcases cell foundRight with ⟨rfl, rfl⟩ | beforeRight
      · exact absurd same (none first left beforeLeft)
      · exact registered.single first second left right beforeLeft
          beforeRight same
  · intro ref sender found
    rcases cell found with ⟨rfl, rfl⟩ | before
    · exact ⟨nofun, nofun⟩
    · exact registered.excused ref sender before
  · exact registered.closing

theorem Registered.set_same (found : h.cells[ref]? = some sender)
    {next : UDPSender} (client : next.client = sender.client)
    (worker : next.worker = sender.worker)
    (stopped : next.stopped = sender.stopped) :
    (h.setCell ref next).Registered := by
  apply registered.set found client
  unfold Excused
  rw [client, worker, stopped]
  exact registered.excused ref sender found

theorem Registered.read (frames : Option Nat) :
    (h.read frames).Registered := by
  obtain ⟨base, reads, _, _, _, _, same⟩ := h.exists_reads frames
  have kept : base.Registered := by
    cases reads with
    | stays => exact registered
    | starts client vacant isOpen =>
      exact registered.startSender vacant isOpen
    | accepts found running batch => exact registered.set_same found rfl rfl rfl
  rw [same]
  exact kept.of_ended rfl rfl id (fun _ => id) kept.closing

theorem Registered.update {step : UDPSender → List BufferRef × UDPSender}
    (kept : ∀ sender, h.cells[ref]? = some sender →
      (step sender).2.client = sender.client ∧ h.Excused (step sender).2) :
    (h.update ref step).Registered := by
  unfold SendHandler.update
  cases found : h.cells[ref]? with
  | none => exact registered
  | some sender =>
    obtain ⟨client, excused⟩ := kept sender found
    have moved := registered.set found client excused
    exact moved.of_ended rfl rfl id (fun _ => id) moved.closing

theorem Registered.work (owned : h.Owned) (outcome : SendOutcome) :
    (h.update ref fun sender => sender.work outcome).Registered := by
  apply registered.update
  intro sender found
  have client := ((owned.sound ref sender found).work outcome).client
  obtain ⟨closed, ended⟩ := registered.excused ref sender found
  refine ⟨client, ?_, ?_⟩
  · intro inLoop stopped
    obtain ⟨before, isStopped⟩ := UDPSender.work_inLoop inLoop stopped
    exact closed before isStopped
  · intro ending
    rw [client]
    rcases UDPSender.work_ending ending with before | ⟨inLoop, stopped⟩
    · exact ended before
    · exact .inl (closed inLoop stopped)

theorem Registered.leave
    (leaving : h.At ref fun sender => decide (sender.worker = .leaving)) :
    (h.leave ref).Registered := by
  unfold SendHandler.leave
  cases found : h.cells[ref]? with
  | none => exact registered
  | some sender =>
    have at_ : sender.worker = .leaving :=
      of_decide_eq_true (holds_of_at leaving found)
    have gone : h.closed = true ∨ h.ended sender.client = true := by
      apply (registered.excused ref sender found).2
      rw [at_]
      rfl
    have finished : (h.setCell ref { sender with
        worker := .finished }).Registered :=
      registered.set found rfl ⟨nofun, fun _ => gone⟩
    dsimp only
    split
    · refine { finished with present := ?_ }
      intro other held there
      by_cases same : held.client = sender.client
      · right
        rw [same]
        exact gone
      · change (h.senders.delete sender.client).get held.client = _ ∨ _
        rw [FiniteMap.get_delete_of_ne _ same]
        exact finished.present other held there
    · exact finished

theorem Registered.closeStep (ready : h.closeReady = true) :
    h.closeStep.Registered := by
  have closed : h.closed = true := by
    apply registered.closing
    unfold closeReady at ready
    split at ready <;> rename_i at_ <;>
      first | (rw [at_]; rfl) | cases ready
  unfold SendHandler.closeStep
  split
  · rename_i ref failed _
    have stopped : (h.update ref fun sender =>
        ([], sender.stop .closer)).Registered := by
      apply registered.update
      intro sender found
      exact ⟨rfl, fun _ _ => closed, (registered.excused ref sender found).2⟩
    have same : (h.update ref fun sender =>
        ([], sender.stop .closer)).closed = h.closed := by
      unfold SendHandler.update
      split <;> rfl
    exact stopped.of_ended rfl rfl id (fun _ => id) (fun _ => same.trans closed)
  · rename_i ref failed _
    cases found : h.cells[ref]? with
    | none => exact registered
    | some sender =>
      dsimp only
      split
      · have unlocked : (h.setCell ref
            { sender with mu := none }).Registered :=
          registered.set_same found rfl rfl rfl
        exact unlocked.of_ended rfl rfl id (fun _ => id) (fun _ => closed)
      · apply registered.update
        intro sender found
        refine ⟨?_, fun _ _ => closed, fun _ => .inl closed⟩
        unfold UDPSender.drain
        split <;> rfl
  · exact registered

theorem Registered.step (owned : h.Owned) (enabled : h.Enabled op) :
    (h.apply op).Registered := by
  have grows : ∀ {client conn : ConnRef}, h.ended client = true →
      (h.cancelled || decide (client ∈ insert conn h.closedConns)) = true := by
    intro client conn ended
    rcases Bool.or_eq_true_iff.mp ended with cancelled | closed
    · rw [cancelled]
      rfl
    · simp [of_decide_eq_true closed]
  cases op with
  | closeConn client =>
    exact registered.of_ended rfl rfl id (fun _ => grows) registered.closing
  | cancel =>
    exact registered.of_ended rfl rfl id (fun _ _ => rfl) registered.closing
  | closeStarts =>
    exact registered.of_ended rfl rfl (fun _ => rfl) (fun _ => id)
      (fun _ => rfl)
  | closeCancels =>
    refine registered.of_ended rfl rfl id (fun _ _ => rfl) ?_
    intro holds
    cases holds
  | closeStep => exact registered.closeStep enabled
  | leave ref => exact registered.leave enabled.2
  | read frames => exact registered.read frames
  | packet session =>
    exact registered.of_ended rfl rfl id (fun _ => id) registered.closing
  | closeFails ref =>
    dsimp only [apply]
    split
    · rename_i failed at_
      refine registered.of_ended rfl rfl id (fun _ => id) ?_
      intro _
      apply registered.closing
      rw [at_]
      rfl
    · exact registered
  | receive ref =>
    dsimp only [apply]
    apply registered.update
    intro sender found
    have at_ := (of_decide_eq_true (holds_of_at enabled found)).1
    have before := (registered.excused ref sender found).1 (by rw [at_]; rfl)
    unfold UDPSender.receive
    split
    · exact ⟨rfl, registered.excused ref sender found⟩
    · exact ⟨rfl, fun _ => before, nofun⟩
  | work ref outcome => exact registered.work owned outcome
  | quit | wake =>
    dsimp only [apply, moveWorker]
    apply registered.update
    intro sender found
    have ended := (Bool.and_eq_true_iff.mp (holds_of_at enabled found)).2
    exact ⟨rfl, nofun, fun _ => .inr ended⟩

end

/-! ## Every run -/

theorem invariant_of_reachable (reachable : runs.Reachable h) :
    h.Owned ∧ h.Registered ∧ h.Locked := by
  apply reachable.invariant
  · rintro state ⟨frames, bytes, client, rfl⟩
    have none : ∀ (ref : SenderRef) (sender : UDPSender),
        (new frames bytes client).cells[ref]? ≠ some sender := nofun
    refine ⟨⟨?_, nofun, fun _ => rfl⟩, ⟨?_, ?_, ?_, nofun⟩, ?_⟩
    · exact fun ref sender found => absurd found (none ref sender)
    · exact fun ref sender found => absurd found (none ref sender)
    · exact fun ref _ sender _ found => absurd found (none ref sender)
    · exact fun ref sender found => absurd found (none ref sender)
    · exact fun ref sender found => absurd found (none ref sender)
  · rintro before after _ ⟨owned, registered, locked⟩ ⟨op, enabled, rfl⟩
    exact ⟨owned.step enabled, registered.step owned enabled,
      locked.step enabled⟩

/-- The sender is still stopped and has accepted nothing more. -/
def StaysStopped (next : SendHandler) (ref : SenderRef) (sender : UDPSender) :
    Prop :=
  ∃ later, next.cells[ref]? = some later ∧
    later.accepted = sender.accepted ∧ later.stopped = true

section

variable (found : h.cells[ref]? = some sender)

include found

variable (stopped : sender.stopped = true)

include stopped

theorem staysStopped_of_cells (cells : next.cells = h.cells) :
    StaysStopped next ref sender :=
  ⟨sender, by rw [cells, found], rfl, stopped⟩

theorem staysStopped_setCell {old new : UDPSender}
    (there : h.cells[target]? = some old)
    (cells : next.cells = h.cells.set target new)
    (accepted : new.accepted = old.accepted)
    (keeps : old.stopped = true → new.stopped = true) :
    StaysStopped next ref sender := by
  by_cases same : ref = target
  · subst same
    cases Option.some.inj (found.symm.trans there)
    refine ⟨new, ?_, accepted, keeps stopped⟩
    rw [cells, getElem?_set_eq there, if_pos rfl]
  · refine ⟨sender, ?_, rfl, stopped⟩
    rw [cells, getElem?_set_eq there, if_neg same]
    exact found

theorem staysStopped_update {step : UDPSender → List BufferRef × UDPSender}
    (keeps : ∀ old, h.cells[target]? = some old →
      old.Keeps h.senderFrameLimit (step old).1 (step old).2) :
    StaysStopped (h.update target step) ref sender := by
  unfold update
  cases there : h.cells[target]? with
  | none => exact staysStopped_of_cells found stopped rfl
  | some old =>
    exact staysStopped_setCell found stopped there rfl
      (keeps old there).accepted (keeps old there).stopped

theorem staysStopped_read (frames : Option Nat) :
    StaysStopped (h.read frames) ref sender := by
  obtain ⟨base, reads, _, _, _, _, same⟩ := h.exists_reads frames
  rw [same]
  cases reads with
  | stays => exact staysStopped_of_cells found stopped rfl
  | starts client vacant isOpen =>
    have inside := (List.getElem?_eq_some_iff.mp found).1
    exact ⟨sender, (List.getElem?_append_left inside).trans found, rfl, stopped⟩
  | accepts there running batch =>
    refine ⟨sender, ?_, rfl, stopped⟩
    change (h.cells.set _ _)[ref]? = some sender
    rw [getElem?_set_eq there, if_neg, found]
    rintro rfl
    cases Option.some.inj (found.symm.trans there)
    rw [stopped] at running
    cases running

end

theorem staysStopped_step (owned : h.Owned)
    (found : h.cells[ref]? = some sender) (stopped : sender.stopped = true)
    (enabled : h.Enabled op) : StaysStopped (h.apply op) ref sender := by
  have same : ∀ {next : SendHandler}, next.cells = h.cells →
      StaysStopped next ref sender := staysStopped_of_cells found stopped
  cases op with
  | read frames => exact staysStopped_read found stopped frames
  | receive target =>
    dsimp only [apply]
    apply staysStopped_update found stopped
    intro old there
    exact (owned.sound target old there).receive
      (of_decide_eq_true (holds_of_at enabled there)).1
  | work target outcome =>
    exact staysStopped_update found stopped fun old there =>
      (owned.sound target old there).work outcome
  | quit target | wake target =>
    dsimp only [apply, moveWorker, update]
    split
    · exact same rfl
    · rename_i old there
      exact staysStopped_setCell found stopped there rfl rfl id
  | leave target =>
    dsimp only [apply, leave]
    split
    · exact same rfl
    · rename_i old there
      split
      all_goals exact staysStopped_setCell found stopped there rfl rfl id
  | closeStep =>
    dsimp only [apply, closeStep]
    split
    · rename_i target failed _
      exact staysStopped_update found stopped fun old there =>
        (owned.sound target old there).stop .closer
    · rename_i target failed _
      split
      · exact same rfl
      rename_i old there
      split
      · exact staysStopped_setCell found stopped there rfl rfl id
      · exact staysStopped_update found stopped fun old there =>
          (owned.sound target old there).drain
    · exact same rfl
  | closeFails target =>
    dsimp only [apply]
    split <;> exact same rfl
  | _ => exact same rfl

/-- Nothing is lost when nobody holds a batch. -/
theorem returned_once (owned : h.Owned) (idle : h.reader.holds = [])
    (finished : ∀ (ref : SenderRef) (sender : UDPSender),
      h.cells[ref]? = some sender → sender.worker = .finished)
    {buffer : Nat} (produced : buffer < h.nextBuffer) :
    h.returned.count buffer = 1 := by
  have balance := owned.buffers buffer
  have none : (h.cells.map fun sender =>
      (sender.buffers.count buffer : Int)).sum = 0 := by
    apply List.sum_eq_zero
    intro weight member
    obtain ⟨sender, inside, rfl⟩ := List.mem_map.mp member
    obtain ⟨ref, found⟩ := List.mem_iff_getElem?.mp inside
    have at_ := finished ref sender found
    have empty := (owned.sound ref sender found).drained (by rw [at_]; rfl)
    simp [UDPSender.buffers, empty.1, at_, Worker.holds]
  rw [idle, none, if_pos produced, List.count_nil] at balance
  omega

/-- The counter of a sender counts the datagrams in its queue and with its
worker, within the limits; room in the counter is room in the channel; every
buffer is in exactly one place, and who has it returns it by steps of its own;
batches are sent in the order they were accepted; a stopped sender accepts
nothing; a finished one owns nothing; and a generation has at most one
sender. -/
theorem sender_ownership (reachable : runs.Reachable h) :
    (∀ (ref : SenderRef) (sender : UDPSender), h.cells[ref]? = some sender →
      sender.ownedFrames = queuedFrames sender.queue + sender.worker.counted ∧
        sender.ownedFrames ≤ (min h.maxSenderQueuedFrames
          (h.maxSenderQueuedBackingBytes / 1200) : Nat) ∧
        sender.sent.Sublist (bufferList sender.accepted) ∧
        (sender.worker = .finished → sender.ownedFrames = 0) ∧
        (sender.stopped = true → ∀ op, h.Enabled op →
          StaysStopped (h.apply op) ref sender)) ∧
    (∀ (session : SessionRef) (ref : SenderRef) (batch : UDPSendBatch)
        (sender : UDPSender),
      h.reader = .locking session ref batch → h.cells[ref]? = some sender →
      ¬ (batch.frames : Int) > h.senderFrameLimit - sender.ownedFrames →
      sender.queue.length < sender.capacity) ∧
    (∀ buffer : Nat, buffer < h.nextBuffer →
      (h.returned.count buffer : Int) + h.reader.holds.count buffer +
        (h.cells.map fun sender =>
          (sender.buffers.count buffer : Int)).sum = 1) ∧
    (h.reader.holds = [] → (∀ (ref : SenderRef) (sender : UDPSender),
        h.cells[ref]? = some sender → sender.worker = .finished) →
      ∀ buffer : Nat, buffer < h.nextBuffer → h.returned.count buffer = 1) ∧
    (∀ (ref : SenderRef) (sender : UDPSender), h.cells[ref]? = some sender →
      h.WorkerReturns ref sender.buffers ∨
        (∃ failed, h.closer = .draining ref failed) ∧
          h.CloserReturns ref (bufferList sender.queue)) ∧
    (∀ (session : SessionRef) (ref : SenderRef) (batch : UDPSendBatch),
      h.reader = .locking session ref batch → h.muFree ref = true →
      h.Enabled (.read none) ∧ ((h.apply (.read none)).reader = .idle ∨
          (h.apply (.read none)).reader = .releasing batch)) ∧
    (∀ batch : UDPSendBatch, h.reader = .releasing batch →
      h.Enabled (.read none) ∧
        (h.apply (.read none)).returned = h.returned ++ batch.datagrams) ∧
    (∀ (first second : SenderRef) (left right : UDPSender),
      h.cells[first]? = some left → h.cells[second]? = some right →
        left.client = right.client → first = second) := by
  obtain ⟨owned, registered, locked⟩ := invariant_of_reachable reachable
  refine ⟨?_, ?_, ?_, ?_, ?_, ?_, ?_, registered.single⟩
  · intro ref sender found
    have sound := owned.sound ref sender found
    refine ⟨sound.owned, sound.bound, ?_, ?_, ?_⟩
    · obtain ⟨gone, accepted, sent⟩ := sound.ordered
      rw [accepted, bufferList_append]
      exact ((List.sublist_append_left _ _).trans sent).trans
        (List.sublist_append_left _ _)
    · intro at_
      have empty := (sound.drained (by rw [at_]; rfl)).1
      rw [sound.owned, empty, at_]
      rfl
    · intro stopped op enabled
      exact staysStopped_step owned found stopped enabled
  · intro session ref batch sender at_ found fits
    exact (owned.sound ref sender found).room
      (owned.batch session ref batch at_) fits
  · intro buffer produced
    have balance := owned.buffers buffer
    rw [if_pos produced] at balance
    exact balance
  · intro idle finished buffer produced
    exact returned_once owned idle finished produced
  · intro ref sender found
    exact locked.returns owned found
  · intro session ref batch at_ unlocked
    exact read_locking at_ unlocked
  · intro batch at_
    constructor
    · simp [Enabled, readReady, at_]
    · simp [apply, read, at_, goto, putBuffers]

/-- A packet of two datagrams is sent, a second one queued and a third one
refused; then the connection ends and the worker drains and finishes. -/
def sampleSchedule : List SendOp :=
  [.packet 0, .read none, .read none, .read (some 2), .read none,
    .receive 0, .work 0 .sent, .work 0 .sent, .work 0 .sent, .work 0 .sent,
    .work 0 .sent, .work 0 .sent,
    .packet 0, .read none, .read none, .read (some 2), .read none,
    .packet 0, .read none, .read none, .read (some 3), .read none,
    .read none,
    .closeConn 0, .quit 0, .work 0 .sent, .work 0 .sent, .work 0 .sent,
    .leave 0]

def sampleHandler : SendHandler := sampleSchedule.foldl apply (new 4 524288 id)

theorem sender_ownership_sample :
    sampleHandler.returned = [0, 1, 4, 5, 6, 2, 3] ∧
      (∀ buffer : Nat, buffer < 7 → sampleHandler.returned.count buffer = 1) ∧
      ∀ sender, sampleHandler.cells[0]? = some sender →
        sender.sent = [0, 1] ∧ sender.ownedFrames = 0 := by
  have allowed : TransitionSystem.Allows Enabled apply
      (new 4 524288 id) sampleSchedule := by
    decide +kernel
  have initial : runs.initial (new 4 524288 id) := ⟨4, 524288, id, rfl⟩
  have reachable : runs.Reachable sampleHandler := by
    apply TransitionSystem.Reachable.schedule _ (.start initial) allowed
    intro state op enabled
    exact ⟨op, enabled, rfl⟩
  obtain ⟨senders, _, _, returned, _⟩ := sender_ownership reachable
  have cells : sampleHandler.cells.map (fun sender =>
      (sender.worker, sender.sent)) = [(.finished, [0, 1])] := by
    decide +kernel
  have cell : ∀ (ref : SenderRef) (sender : UDPSender),
      sampleHandler.cells[ref]? = some sender →
      sender.worker = .finished ∧ sender.sent = [0, 1] := by
    intro ref sender found
    have member := List.mem_map_of_mem (f := fun sender : UDPSender =>
      (sender.worker, sender.sent)) (List.mem_of_getElem? found)
    rw [cells, List.mem_singleton] at member
    exact Prod.mk.inj member
  refine ⟨by decide +kernel, ?_, ?_⟩
  · intro buffer small
    exact returned (by decide +kernel)
      (fun ref sender found => (cell ref sender found).1) buffer
      (small.trans_eq (by decide +kernel))
  · intro sender found
    have done := cell 0 sender found
    exact ⟨done.2, (senders 0 sender found).2.2.2.1 done.1⟩

end SendHandler

end QMux.Traffic.Sending
