import QMux.Traffic.UDPSenderOwnership

/-!
# Senders return their buffers

`sender.mu` is held only by a worker or a `close` that empties the queue.  A
worker that can take it gets rid of its batch and of its queue by its own
steps, whatever `SendDatagram` returns; while `close` holds it, `close`
empties the queue and unlocks.  So no state of a run keeps a buffer from the
pool for good.
-/

namespace QMux.Traffic.Sending

open Support Pool SendHandler

namespace UDPSender

variable {sender : UDPSender} {limit : Nat}

/-- `sender.mu` is free, or the worker holds it. -/
def Free (sender : UDPSender) : Prop :=
  sender.mu = none ∨ ∃ terminal, sender.worker = .draining terminal

theorem Free.mu (free : sender.Free)
    (elsewhere : ∀ terminal, sender.worker ≠ .draining terminal) :
    sender.mu = none := by
  rcases free with unlocked | ⟨terminal, draining⟩
  · exact unlocked
  · exact absurd draining (elsewhere terminal)

theorem Free.work (free : sender.Free) (outcome : SendOutcome) :
    (sender.work outcome).2.Free := by
  unfold UDPSender.work
  cases at_ : sender.worker with
  | failing terminal => exact .inr ⟨terminal, rfl⟩
  | draining terminal =>
    dsimp only
    split
    · exact .inl rfl
    · right
      unfold UDPSender.drain
      split <;> exact ⟨terminal, at_⟩
  | sending batch rest =>
    have unlocked := free.mu (by simp [at_])
    cases rest <;> exact .inl unlocked
  | _ => exact .inl (free.mu (by simp [at_]))

theorem Free.receive (free : sender.Free)
    (selecting : sender.worker = .selecting) : sender.receive.Free := by
  have unlocked := free.mu (by simp [selecting])
  unfold UDPSender.receive
  split <;> exact .inl unlocked

/-- The worker's next step: it receives in `select`. -/
def turn (sender : UDPSender) (outcome : SendOutcome) :
    List BufferRef × UDPSender :=
  if sender.worker = .selecting then ([], sender.receive)
  else sender.work outcome

/-- The worker's next step is possible. -/
def ready (sender : UDPSender) : Bool :=
  if sender.worker = .selecting then decide (sender.queue ≠ [])
  else sender.working && (!sender.locks || decide (sender.mu = none))

/-- A bound on the worker's steps until it owns no buffer. -/
def stepsLeft (sender : UDPSender) : Nat :=
  (sender.queue.map fun batch => batch.frames + 5).sum +
    match sender.worker with
    | .taken batch => batch.frames + 6
    | .sending _ rest => rest.length + 5
    | .releasing _ _ => 4
    | .returning _ _ => 3
    | .selecting => 2
    | .failing _ => 1
    | _ => 0

/-- What a step of the worker achieves. -/
structure Advances (sender : UDPSender) (buffers : List BufferRef)
    (next : UDPSender) : Prop where
  returned : sender.buffers = buffers ++ next.buffers
  fewer : next.stepsLeft < sender.stepsLeft

theorem Sound.turn (sound : sender.Sound limit) (free : sender.Free)
    (owes : sender.buffers ≠ []) (outcome : SendOutcome) :
    sender.ready = true ∧
      sender.Advances (sender.turn outcome).1 (sender.turn outcome).2 := by
  have unlocked := free.mu
  unfold UDPSender.turn UDPSender.ready
  cases at_ : sender.worker with
  | selecting =>
    cases queue : sender.queue with
    | nil => simp [buffers, at_, queue] at owes
    | cons batch rest =>
      refine ⟨rfl, ?_, ?_⟩ <;>
        simp [buffers, UDPSender.receive, stepsLeft, at_, queue]
      omega
  | taken batch =>
    refine ⟨by simp [working, locks, at_], ?_, ?_⟩ <;>
      by_cases stopped : sender.stopped <;>
      simp [buffers, UDPSender.work, stepsLeft, at_, stopped,
        UDPSendBatch.frames]
  | sending batch rest =>
    refine ⟨by simp [working, locks, at_], ?_, ?_⟩ <;>
      cases rest <;> cases outcome <;>
      simp [buffers, UDPSender.work, stepsLeft, at_]
  | releasing batch after =>
    refine ⟨by simp [working, locks, at_, unlocked], ?_, ?_⟩ <;>
      simp [buffers, UDPSender.work, stepsLeft, at_]
  | returning batch after =>
    refine ⟨by simp [working, locks, at_], ?_, ?_⟩ <;> cases after <;>
      simp [buffers, UDPSender.work, stepsLeft, at_]
  | failing terminal =>
    refine ⟨by simp [working, locks, at_, unlocked], ?_, ?_⟩ <;>
      simp [buffers, UDPSender.work, UDPSender.stop, stepsLeft, at_]
  | draining terminal =>
    cases queue : sender.queue with
    | nil => simp [buffers, at_, queue] at owes
    | cons batch rest =>
      refine ⟨by simp [working, locks, at_], ?_, ?_⟩ <;>
        simp [buffers, UDPSender.work, UDPSender.drain, stepsLeft, at_, queue]
  | waiting | leaving | finished =>
    have empty := (sound.drained (by rw [at_]; rfl)).1
    simp [buffers, at_, empty] at owes

theorem Sound.turn_kept (sound : sender.Sound limit) (free : sender.Free)
    (outcome : SendOutcome) :
    (sender.turn outcome).2.Sound limit ∧ (sender.turn outcome).2.Free := by
  unfold UDPSender.turn
  split
  · rename_i selecting
    exact ⟨(sound.receive selecting).sound, free.receive selecting⟩
  · exact ⟨(sound.work outcome).sound, free.work outcome⟩

end UDPSender

namespace SendHandler

variable {h : SendHandler} {ref : SenderRef} {sender : UDPSender}

/-! ## Who holds `sender.mu` -/

/-- Only a worker or a `close` that empties the queue holds `sender.mu`. -/
def Locked (h : SendHandler) : Prop :=
  ∀ (ref : SenderRef) (sender : UDPSender), h.cells[ref]? = some sender →
    sender.Free ∨ ∃ failed, h.closer = .draining ref failed

theorem Locked.free (locked : h.Locked)
    (elsewhere : ∀ ref failed, h.closer ≠ .draining ref failed)
    (found : h.cells[ref]? = some sender) : sender.Free := by
  rcases locked ref sender found with free | ⟨failed, draining⟩
  · exact free
  · exact absurd draining (elsewhere ref failed)

theorem update_other (step : UDPSender → List BufferRef × UDPSender)
    {other : SenderRef} (different : other ≠ ref) :
    (h.update ref step).cells[other]? = h.cells[other]? := by
  unfold update
  split
  · rfl
  · exact List.getElem?_set_ne different.symm

section

variable (locked : h.Locked)

include locked

theorem Locked.setCell (found : h.cells[ref]? = some sender)
    {next : UDPSender} (kept : sender.Free → next.Free) :
    (h.setCell ref next).Locked := by
  intro other held there
  rcases cases_set found there with ⟨rfl, rfl⟩ | ⟨_, before⟩
  · exact (locked other sender found).imp kept id
  · exact locked other held before

theorem Locked.update {step : UDPSender → List BufferRef × UDPSender}
    (kept : ∀ sender, h.cells[ref]? = some sender → sender.Free →
      (step sender).2.Free) : (h.update ref step).Locked := by
  unfold SendHandler.update
  cases found : h.cells[ref]? with
  | none => exact locked
  | some sender => exact locked.setCell found (kept sender found)

theorem Locked.read (frames : Option Nat) : (h.read frames).Locked := by
  obtain ⟨base, reads, _, _, _, _, same⟩ := h.exists_reads frames
  rw [same]
  cases reads with
  | stays => exact locked
  | starts client vacant isOpen =>
    intro ref sender found
    rcases cases_append found with ⟨_, rfl⟩ | before
    · exact .inl (.inl rfl)
    · exact locked ref sender before
  | accepts found running batch => exact locked.setCell found id

theorem Locked.closeStep : h.closeStep.Locked := by
  unfold SendHandler.closeStep
  split
  · rename_i ref failed at_
    intro other held there
    by_cases same : other = ref
    · exact .inr ⟨failed, by rw [same]⟩
    · have before : h.cells[other]? = some held := by
        rw [← update_other _ same]
        exact there
      exact .inl (locked.free (by simp [at_]) before)
  · rename_i ref failed at_
    cases found : h.cells[ref]? with
    | none => exact locked
    | some sender =>
      dsimp only
      split
      · intro other held there
        rcases cases_set found there with ⟨_, rfl⟩ | ⟨different, before⟩
        · exact .inl (.inl rfl)
        left
        rcases locked other held before with free | ⟨later, draining⟩
        · exact free
        · rw [at_] at draining
          cases draining
          exact absurd rfl different
      · apply locked.update
        intro sender _ free
        unfold UDPSender.drain
        split <;> exact free
  · exact locked

theorem Locked.step {op : SendOp} (enabled : h.Enabled op) :
    (h.apply op).Locked := by
  cases op with
  | closeConn | cancel | packet => exact locked
  | read frames => exact locked.read frames
  | receive ref =>
    apply locked.update
    intro sender found free
    exact free.receive (of_decide_eq_true (holds_of_at enabled found)).1
  | work ref outcome =>
    apply locked.update
    intro sender _ free
    exact free.work outcome
  | quit | wake =>
    apply locked.update
    intro sender found free
    have ready := holds_of_at enabled found
    have at_ := of_decide_eq_true (Bool.and_eq_true_iff.mp ready).1
    exact .inl (free.mu (by simp [at_]))
  | leave ref =>
    dsimp only [apply, leave]
    cases found : h.cells[ref]? with
    | none => exact locked
    | some sender =>
      have at_ := of_decide_eq_true (holds_of_at enabled.2 found)
      have moved : (h.setCell ref { sender with
          worker := .finished }).Locked := by
        apply locked.setCell found
        intro free
        exact .inl (free.mu (by simp [at_]))
      dsimp only
      split <;> exact moved
  | closeStarts =>
    have notStarted : h.closer = .notStarted := enabled
    intro ref sender found
    exact .inl (locked.free (by simp [notStarted]) found)
  | closeFails target =>
    dsimp only [apply]
    split
    · rename_i failed at_
      intro ref sender found
      exact .inl (locked.free (by simp [at_]) found)
    · exact locked
  | closeStep => exact locked.closeStep
  | closeCancels =>
    have stopping : ∃ failed, h.closer = .stopping failed := by
      change h.stoppedAll = true at enabled
      unfold stoppedAll at enabled
      split at enabled
      · exact ⟨_, ‹_›⟩
      · cases enabled
    obtain ⟨failed, at_⟩ := stopping
    intro ref sender found
    exact .inl (locked.free (by simp [at_]) found)

end

/-! ## Steps of the owner alone -/

/-- The next step of the worker of a sender. -/
def own (ref : SenderRef) (h : SendHandler) (outcome : SendOutcome) :
    SendOp :=
  if h.At ref fun sender => decide (sender.worker = .selecting) then
    .receive ref
  else .work ref outcome

/-- Whatever `SendDatagram` returns, the worker's next steps return the
buffers, a bounded number of steps in all. -/
def WorkerReturns (h : SendHandler) (ref : SenderRef)
    (buffers : List BufferRef) : Prop :=
  ∃ bound, ∀ outcomes : List SendOutcome, bound ≤ outcomes.length →
    ∃ calls, calls <+: outcomes ∧
      TransitionSystem.Allows (fun h outcome => h.Enabled (own ref h outcome))
        (fun h outcome => h.apply (own ref h outcome)) h calls ∧
      (calls.foldl (fun h outcome => h.apply (own ref h outcome)) h).returned
        = h.returned ++ buffers

/-- The next steps of `close` return the buffers and unlock `sender.mu`. -/
def CloserReturns (h : SendHandler) (ref : SenderRef)
    (buffers : List BufferRef) : Prop :=
  ∃ steps, TransitionSystem.Allows Enabled apply h
      (List.replicate steps .closeStep) ∧
    ((List.replicate steps .closeStep).foldl apply h).returned =
      h.returned ++ buffers ∧
    ((List.replicate steps .closeStep).foldl apply h).muFree ref = true

theorem own_enabled (found : h.cells[ref]? = some sender)
    (ready : sender.ready = true) (outcome : SendOutcome) :
    h.Enabled (own ref h outcome) := by
  unfold UDPSender.ready at ready
  unfold own At
  rw [found, Option.any_some]
  by_cases selecting : sender.worker = .selecting
  · rw [if_pos selecting] at ready
    simp only [selecting, decide_true, if_true]
    simpa [Enabled, At, found, selecting] using ready
  · rw [if_neg selecting] at ready
    simp only [selecting, decide_false, Bool.false_eq_true, if_false]
    simpa [Enabled, At, found] using ready

theorem apply_own (found : h.cells[ref]? = some sender)
    (outcome : SendOutcome) :
    h.apply (own ref h outcome) = (h.setCell ref
      (sender.turn outcome).2).putBuffers (sender.turn outcome).1 := by
  unfold own At UDPSender.turn
  rw [found, Option.any_some]
  by_cases selecting : sender.worker = .selecting <;>
    simp [selecting, apply, update, found]

theorem workerReturns {limit : Nat} (found : h.cells[ref]? = some sender)
    (sound : sender.Sound limit) (free : sender.Free) :
    h.WorkerReturns ref sender.buffers := by
  refine ⟨sender.stepsLeft, ?_⟩
  intro outcomes enough
  induction outcomes generalizing h sender with
  | nil =>
    refine ⟨[], List.nil_prefix, trivial, ?_⟩
    have nothing : sender.buffers = [] := by
      by_contra owes
      have fewer := (sound.turn free owes .sent).2.fewer
      rw [List.length_nil] at enough
      omega
    rw [nothing, List.append_nil]
    rfl
  | cons outcome rest ih =>
    by_cases nothing : sender.buffers = []
    · refine ⟨[], List.nil_prefix, trivial, ?_⟩
      rw [nothing, List.append_nil]
      rfl
    · obtain ⟨ready, advances⟩ := sound.turn free nothing outcome
      obtain ⟨later, still⟩ := sound.turn_kept free outcome
      have moved := apply_own found outcome
      have there : (h.apply (own ref h outcome)).cells[ref]? =
          some (sender.turn outcome).2 := by
        rw [moved]
        exact (getElem?_set_eq found _ ref).trans (if_pos rfl)
      have fewer := advances.fewer
      rw [List.length_cons] at enough
      obtain ⟨calls, front, allows, returned⟩ := ih there later still (by omega)
      refine ⟨outcome :: calls, List.cons_prefix_cons.mpr ⟨rfl, front⟩,
        ⟨own_enabled found ready outcome, allows⟩, ?_⟩
      rw [List.foldl_cons, returned, advances.returned, ← List.append_assoc]
      rw [moved]
      rfl

theorem closerReturns {failed : List SenderRef}
    (found : h.cells[ref]? = some sender)
    (at_ : h.closer = .draining ref failed) :
    h.CloserReturns ref (bufferList sender.queue) := by
  generalize contents : sender.queue = queue
  induction queue generalizing h sender with
  | nil =>
    refine ⟨1, ⟨by simp [Enabled, closeReady, at_], trivial⟩, ?_, ?_⟩ <;>
      simp [apply, closeStep, at_, found, contents, muFree, At,
        setCell, getElem?_set_eq found]
  | cons batch rest ih =>
    have moved : h.apply .closeStep = (h.setCell ref { sender with
        queue := rest
        ownedFrames := sender.ownedFrames - batch.frames }).putBuffers
          batch.datagrams := by
      simp [apply, closeStep, at_, found, contents, update, UDPSender.drain]
    have there := (getElem?_set_eq found { sender with
      queue := rest
      ownedFrames := sender.ownedFrames - batch.frames } ref).trans
        (if_pos rfl)
    obtain ⟨steps, allows, returned, unlocked⟩ :=
      ih (h := h.apply .closeStep) (by rw [moved]; exact there)
        (by rw [moved]; exact at_) rfl
    refine ⟨steps + 1, ⟨by simp [Enabled, closeReady, at_], allows⟩, ?_,
      unlocked⟩
    rw [List.replicate_succ, List.foldl_cons, returned, moved,
      bufferList_cons, ← List.append_assoc]
    rfl

/-- In every state with these invariants the owner of a sender's buffers
returns them by its own steps. -/
theorem Locked.returns (locked : h.Locked) (owned : h.Owned)
    (found : h.cells[ref]? = some sender) :
    h.WorkerReturns ref sender.buffers ∨
      (∃ failed, h.closer = .draining ref failed) ∧
        h.CloserReturns ref (bufferList sender.queue) := by
  rcases locked ref sender found with free | ⟨failed, at_⟩
  · exact .inl (workerReturns found (owned.sound ref sender found) free)
  · exact .inr ⟨⟨failed, at_⟩, closerReturns found at_⟩

/-- The reader offers its batch to the sender when it has `sender.mu`. -/
theorem read_locking {session : SessionRef} {batch : UDPSendBatch}
    (at_ : h.reader = .locking session ref batch)
    (unlocked : h.muFree ref = true) :
    h.Enabled (.read none) ∧ ((h.apply (.read none)).reader = .idle ∨
        (h.apply (.read none)).reader = .releasing batch) := by
  constructor
  · simpa [Enabled, readReady, at_] using unlocked
  · simp only [apply, read, at_]
    unfold enqueue
    split
    · rename_i absent
      simp [muFree, At, absent] at unlocked
    split
    · exact .inr rfl
    · split
      · exact .inl rfl
      · exact .inr rfl

end SendHandler

end QMux.Traffic.Sending
