import QMux.Mesh.ControlState

/-!
# The control queue of a link

Embedding of `controlQueue` with what its consumer depends on: a frame is
known by where its data lies, `done` compares that address with the head, and
the limits count the capacity of the data.
-/

namespace QMux.Mesh

open Support Protocol

/-- A queued frame, the address of its first byte and the capacity of its
data. -/
structure BackedFrame where
  address : Nat
  capacity : Nat
  frame : QueuedControlFrame
deriving DecidableEq

def BackedFrame.sequence (backed : BackedFrame) : Nat := backed.frame.sequence

/-- The sum of the capacities. -/
def capacities (frames : List BackedFrame) : Nat :=
  (frames.map BackedFrame.capacity).sum

/-- The queue of the control state, over frames with their addresses. -/
abbrev LinkQueue := ControlQueue BackedFrame

namespace LinkQueue

def push (q : LinkQueue) (frames : List BackedFrame) : Bool × LinkQueue :=
  ControlQueue.push q BackedFrame.capacity frames

/-- Take off the frame that was written, if it is still at the head: it has
the same sequence number and its data lies at the same address. -/
def done (q : LinkQueue) (frame : BackedFrame) : LinkQueue :=
  match q.frames with
  | [] => q
  | head :: rest =>
    if head.sequence = frame.sequence ∧ head.address = frame.address then
      { q with frames := rest, bytes := q.bytes - frame.capacity }
    else q

def clear (q : LinkQueue) : LinkQueue :=
  { q with frames := [], bytes := 0, failed := true }

variable {q : LinkQueue} {frames : List BackedFrame}

/-- A batch is queued as a whole, or the queue keeps its frames and is
failed. -/
theorem push_cases (q : LinkQueue) (frames : List BackedFrame) :
    (q.push frames).1 = true ∧ q.failed = false ∧ (q.push frames).2 = { q with
        frames := q.frames ++ frames
        bytes := q.bytes + capacities frames } ∧
      (q.frames.length + frames.length : Int) ≤ q.maxMessages ∧
      q.bytes + capacities frames ≤ q.maxBytes ∨
    (q.push frames).1 = false ∧
      (q.push frames).2 = { q with failed := true } := by
  unfold push ControlQueue.push
  split
  · rename_i failed
    right
    refine ⟨rfl, ?_⟩
    rw [← failed]
  rename_i fine
  split
  · exact .inr ⟨rfl, rfl⟩
  rename_i room
  rw [not_or] at room
  refine .inl ⟨rfl, by simpa using fine, rfl, ?_, ?_⟩
  · omega
  · unfold capacities
    omega

/-- The count and the bytes of the queue are those of its frames, within the
limits. -/
structure Bounded (q : LinkQueue) : Prop where
  bytes : q.bytes = capacities q.frames
  count : q.frames.length ≤ q.maxMessages
  size : q.bytes ≤ q.maxBytes

theorem new_bounded (limits : MeshLimits) :
    Bounded (ControlQueue.new limits) :=
  ⟨rfl, Nat.zero_le _, Int.natCast_nonneg _⟩

theorem Bounded.push (bounded : q.Bounded) (frames : List BackedFrame) :
    (q.push frames).2.Bounded := by
  rcases q.push_cases frames with ⟨-, -, same, count, size⟩ | ⟨-, same⟩
  · rw [same]
    refine ⟨?_, ?_, size⟩
    · show q.bytes + capacities frames = capacities (q.frames ++ frames)
      have total : capacities (q.frames ++ frames) =
          capacities q.frames + capacities frames := by
        simp [capacities]
      rw [total, bounded.bytes, Int.natCast_add]
    · show (q.frames ++ frames).length ≤ q.maxMessages
      rw [List.length_append]
      omega
  · rw [same]
    exact ⟨bounded.bytes, bounded.count, bounded.size⟩

variable {frame : BackedFrame} {rest : List BackedFrame}

theorem done_head (head : q.frames = frame :: rest) :
    q.done frame =
      { q with frames := rest, bytes := q.bytes - frame.capacity } := by
  unfold done
  rw [head]
  exact if_pos ⟨rfl, rfl⟩

theorem done_nil (frame : BackedFrame) (empty : q.frames = []) :
    q.done frame = q := by
  unfold done
  rw [empty]

theorem Bounded.tail (bounded : q.Bounded) (head : q.frames = frame :: rest) :
    Bounded { q with frames := rest, bytes := q.bytes - frame.capacity } := by
  have bytes := bounded.bytes
  have count := bounded.count
  have size := bounded.size
  rw [head, List.length_cons] at count
  have split : capacities q.frames = frame.capacity + capacities rest := by
    rw [head]
    exact List.sum_cons
  refine ⟨?_, ?_, ?_⟩
  · show q.bytes - frame.capacity = capacities rest
    omega
  · show rest.length ≤ q.maxMessages
    omega
  · show q.bytes - frame.capacity ≤ q.maxBytes
    omega

theorem clear_bounded (q : LinkQueue) : q.clear.Bounded :=
  ⟨rfl, Nat.zero_le _, Int.natCast_nonneg _⟩

end LinkQueue

end QMux.Mesh
