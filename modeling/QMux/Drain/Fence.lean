import QMux.Drain.ServerFence
import QMux.Drain.ClientFence

/-!
# The drain fence, end to end

The server of one generation and the client of the same connection, joined by
QUIC: streams are handed out in the order they were opened, and a written
`DrainComplete` is read in order.  Steps of the two sides interleave freely.
-/

namespace QMux.Drain

open Support Pool

/-- Both ends of one connection. -/
structure Connection (σ : Type*) where
  server : Server σ
  client : Client

inductive ConnectionOp where
  | server (op : ServerOp)
  | client (op : ClientOp)
deriving DecidableEq

namespace Connection

variable {σ : Type*} {gen : ConnRef} {state next : Connection σ}

def apply (gen : ConnRef) (state : Connection σ) :
    ConnectionOp → Connection σ
  | .server op => { state with server := state.server.apply gen op }
  | .client op => { state with
      client := state.client.apply state.server.sent op }

/-- The server sees a drain request only after the client wrote one. -/
def Enabled (gen : ConnRef) (state : Connection σ) : ConnectionOp → Prop
  | .server op => state.server.Enabled gen op ∧
      (op = .drainRequest → state.client.control.requestWritten = true)
  | .client op => state.client.Enabled state.server.opened op

instance (gen : ConnRef) (state : Connection σ) (op : ConnectionOp) :
    Decidable (state.Enabled gen op) := by
  cases op <;> dsimp only [Enabled] <;> infer_instance

def Step (gen : ConnRef) (state next : Connection σ) : Prop :=
  ∃ op, state.Enabled gen op ∧ next = state.apply gen op

/-- All interleavings of the two sides. -/
def runs (σ : Type*) (gen : ConnRef) : TransitionSystem (Connection σ) where
  initial state := state.server.Initial ∧ state.client = .initial
  step := Step gen

theorem Step.server_cases (step : state.Step gen next) :
    (state.server.Step gen next.server ∧ next.client = state.client) ∨
      (next.server = state.server ∧
        ∃ op, state.client.Enabled state.server.opened op ∧
          next.client = state.client.apply state.server.sent op) := by
  obtain ⟨op, enabled, rfl⟩ := step
  cases op with
  | server op => exact .inl ⟨⟨op, enabled.1, rfl⟩, rfl⟩
  | client op => exact .inr ⟨rfl, op, enabled, rfl⟩

theorem server_reaches (reaches : (runs σ gen).Reaches state next) :
    (Server.runs σ gen).Reaches state.server next.server := by
  induction reaches with
  | refl => exact .refl
  | tail _ step ih =>
    rcases Step.server_cases step with ⟨moved, _⟩ | ⟨same, _⟩
    · exact ih.tail moved
    · rw [same]
      exact ih

theorem server_reachable (reachable : (runs σ gen).Reachable state) :
    (Server.runs σ gen).Reachable state.server := by
  apply reachable.project
  · intro start initial
    exact initial.1
  · intro before after _ step
    rcases Step.server_cases step with ⟨moved, _⟩ | ⟨same, _⟩
    · exact .single moved
    · rw [same]
      exact .refl

end Connection

/-! ## What the server only adds to -/

namespace Server

variable {σ : Type*} {gen : ConnRef} {server next : Server σ}

theorem Step.opened_le (step : server.Step gen next) :
    server.opened ≤ next.opened := by
  obtain ⟨op, _, rfl⟩ := step
  cases op with
  | pool | stop => exact Nat.le_refl _
  | openStream lease => exact Nat.le_succ _
  | recordStream lease =>
    change _ ≤ (server.recordStream lease).opened
    unfold recordStream
    split
    all_goals exact Nat.le_refl _
  | recordStep lease =>
    change _ ≤ (server.advanceRecord gen lease).opened
    unfold advanceRecord
    split
    all_goals exact Nat.le_refl _
  | drainRequest => exact Nat.le_of_eq drainRequest_uninvolved.opened.symm
  | receiveFence => exact Nat.le_of_eq receiveFence_uninvolved.opened.symm
  | writeDrainComplete delivered failed =>
    exact Nat.le_of_eq
      (writeDrainComplete_uninvolved delivered failed).opened.symm
  | finish => exact Nat.le_of_eq finish_uninvolved.opened.symm

theorem Step.sent_subset (step : server.Step gen next) :
    server.sent ⊆ next.sent := by
  obtain ⟨op, _, rfl⟩ := step
  cases op with
  | pool | openStream | stop => exact List.Subset.refl _
  | recordStream lease =>
    change _ ⊆ (server.recordStream lease).sent
    unfold recordStream
    split
    all_goals exact List.Subset.refl _
  | recordStep lease =>
    change _ ⊆ (server.advanceRecord gen lease).sent
    unfold advanceRecord
    split
    all_goals exact List.Subset.refl _
  | drainRequest =>
    change _ ⊆ (server.drainRequest gen).sent
    unfold drainRequest
    split
    all_goals exact List.Subset.refl _
  | receiveFence =>
    change _ ⊆ server.receiveFence.sent
    unfold receiveFence
    split
    all_goals exact List.Subset.refl _
  | writeDrainComplete delivered failed =>
    change _ ⊆ (server.writeDrainComplete delivered failed).sent
    unfold writeDrainComplete
    split
    · exact List.Subset.refl _
    dsimp only
    have written : ∀ fence : Int, server.sent ⊆
        if delivered = true ∨ failed = false then server.sent ++ [fence]
        else server.sent := by
      intro fence
      split
      · exact List.subset_append_left _ _
      · exact List.Subset.refl _
    split
    · exact List.Subset.refl _
    · split
      all_goals exact written _
  | finish =>
    change _ ⊆ (server.finish gen).sent
    unfold finish
    split
    all_goals exact List.Subset.refl _

end Server

/-! ## Fences the client has seen -/

/-- Every fence on the client side was written by the server. -/
structure FromServer (sent : List Int) (control : ClientControl)
    (received : Option Int) : Prop where
  read : ∀ entry ∈ control.readCh, entry.1 ∈ sent
  complete : ∀ fence, control.drainComplete = some fence → fence ∈ sent
  received : ∀ fence, received = some fence → fence ∈ sent

namespace FromServer

variable {sent : List Int} {control : ClientControl} {received : Option Int}

theorem mono (from_ : FromServer sent control received) {later : List Int}
    (grows : sent ⊆ later) : FromServer later control received where
  read entry member := grows (from_.read entry member)
  complete fence ready := grows (from_.complete fence ready)
  received fence got := grows (from_.received fence got)

theorem readDrainComplete (from_ : FromServer sent control received) :
    FromServer sent (control.readDrainComplete sent) received := by
  unfold ClientControl.readDrainComplete
  split
  · exact from_
  rename_i fence found
  refine ⟨?_, from_.complete, from_.received⟩
  intro entry member
  rcases List.mem_append.mp member with earlier | latest
  · exact from_.read entry earlier
  · rw [List.mem_singleton.mp latest]
    exact List.mem_of_getElem? found

theorem handleDrainComplete (from_ : FromServer sent control received) :
    FromServer sent control.handleDrainComplete received := by
  unfold ClientControl.handleDrainComplete
  split
  · exact from_
  rename_i fence epoch rest queue
  have head : fence ∈ sent := by
    apply from_.read (fence, epoch)
    rw [queue]
    exact List.mem_cons_self
  have read : ∀ entry ∈ rest, entry.1 ∈ sent := by
    intro entry member
    apply from_.read entry
    rw [queue]
    exact List.mem_cons_of_mem _ member
  dsimp only
  split
  · exact ⟨read, from_.complete, from_.received⟩
  split
  · split
    all_goals exact ⟨read, from_.complete, from_.received⟩
  · refine ⟨read, ?_, from_.received⟩
    intro complete ready
    cases earlier : control.drainComplete with
    | none =>
      dsimp only at ready
      rw [earlier] at ready
      cases ready
      exact head
    | some first =>
      dsimp only at ready
      rw [earlier] at ready
      exact from_.complete complete (earlier.trans ready)

end FromServer

namespace Client

variable {opened : Nat} {sent : List Int} {client : Client}

/-- The client's fences are the server's. -/
def Heard (sent : List Int) (client : Client) : Prop :=
  FromServer sent client.control client.received

theorem Heard.step (heard : client.Heard sent) (op : ClientOp) :
    (client.apply sent op).Heard sent := by
  have selects : ∀ (continues : Client) (selected : Selected),
      continues.Heard sent → (client.select continues selected).Heard sent := by
    intro continues selected continued
    cases selected with
    | ready => exact continued
    | _ => exact heard
  cases op with
  | dispatch =>
    change client.dispatch.Heard sent
    unfold Client.dispatch
    split
    · split
      · exact heard
      · split
        all_goals exact heard
    · exact heard
  | check outcome =>
    cases outcome with
    | stale | unfit | fit => exact heard
  | requestDrain failed =>
    cases failed with
    | true | false => exact heard
  | awaitFence selected =>
    apply selects
    unfold receiveFence
    split
    · exact heard
    · rename_i fence ready
      refine ⟨heard.read, nofun, ?_⟩
      rintro _ ⟨⟩
      exact heard.complete fence ready
  | setFence =>
    change client.setFence.Heard sent
    unfold Client.setFence
    split
    · split
      all_goals exact heard
    · exact heard
  | awaitAccept selected | awaitHandlers selected =>
    exact selects _ selected heard
  | awaitQuiescence selected =>
    cases selected with
    | ready => exact heard
    | _ => exact heard
  | cleanupDone =>
    change client.cleanupDone.Heard sent
    unfold Client.cleanupDone
    split
    all_goals exact heard
  | drainCommand | commitDrainRequest | readOther | handleOther | controlStop
  | writeDrainRequest =>
    exact ⟨heard.read, heard.complete, heard.received⟩
  | readDrainComplete => exact FromServer.readDrainComplete heard
  | handleDrainComplete => exact FromServer.handleDrainComplete heard
  | _ => exact heard

end Client

namespace Connection

variable {σ : Type*} {gen : ConnRef} {state next : Connection σ}

/-- The client's invariants next to the server it talks to. -/
structure ClientSound (state : Connection σ) : Prop where
  inOrder : state.client.InOrder state.server.opened
  held : state.client.FenceHeld
  explained : state.client.Explained
  heard : state.client.Heard state.server.sent

theorem ClientSound.step (sound : state.ClientSound)
    (step : state.Step gen next) : next.ClientSound := by
  rcases step.server_cases with ⟨moved, client⟩ | ⟨server, op, enabled, client⟩
  · constructor
    · rw [client]
      exact Ordered.mono sound.inOrder moved.opened_le
    · rw [client]
      exact sound.held
    · rw [client]
      exact sound.explained
    · rw [client]
      exact FromServer.mono sound.heard moved.sent_subset
  · constructor
    · rw [client, server]
      exact sound.inOrder.step enabled
    · rw [client]
      exact sound.held.step enabled
    · rw [client]
      exact sound.explained.step sound.held enabled
    · rw [client, server]
      exact sound.heard.step op

theorem clientSound_of_reachable (reachable : (runs σ gen).Reachable state) :
    state.ClientSound := by
  apply reachable.invariant
  · rintro start ⟨_, client⟩
    constructor
    · rw [client]
      exact ⟨rfl, fun _ => rfl, nofun, rfl, Nat.zero_le _⟩
    · rw [client]
      exact ⟨nofun, fun _ => ⟨rfl, rfl⟩, nofun, nofun⟩
    · rw [client]
      exact ⟨nofun, nofun, nofun, nofun, nofun⟩
    · rw [client]
      exact ⟨nofun, nofun, nofun⟩
  · intro before after _ sound step
    exact sound.step step

/-- A client that dispatched streams up to the fence of all opened streams
dispatched all of them. -/
theorem dispatched_of_fence {opened : Nat} {recorded : List Int}
    {fence acceptedHigh : Int} {accept : AcceptLoop}
    (ordered : Ordered opened acceptedHigh accept)
    (isFence : IsFence recorded fence)
    (recordedOpened : ∀ id ∈ recorded, ∃ n, n < opened ∧ id = streamID n)
    (allRecorded : ∀ n, n < opened → streamID n ∈ recorded)
    (reached : fence = -1 ∨ acceptedHigh ≥ fence) :
    accept.dispatched = (List.range opened).map streamID := by
  have count : accept.dispatched.length = opened := by
    have bound : accept.dispatched.length ≤ opened :=
      Nat.le_trans ordered.dispatched_le ordered.bound
    rcases isFence with ⟨none, _⟩ | ⟨member, maximal⟩
    · -- Nothing was recorded, so nothing was opened.
      have unopened : opened = 0 := by
        by_contra some
        have first := allRecorded 0 (Nat.pos_of_ne_zero some)
        rw [none] at first
        cases first
      omega
    · obtain ⟨n, inside, fenceIs⟩ := recordedOpened fence member
      have last := maximal _ (allRecorded (opened - 1) (by omega))
      have high : streamID n ≤ acceptedHigh := by
        rw [fenceIs] at reached
        rcases reached with impossible | high
        · unfold streamID at impossible
          omega
        · exact high
      rw [fenceIs] at last
      cases dispatched : accept.dispatched.length with
      | zero =>
        rw [ordered.none dispatched] at high
        unfold streamID at high
        omega
      | succ m =>
        rw [ordered.last m dispatched] at high
        unfold streamID at high last
        omega
  rw [ordered.streams, count]

/-- The drain fence, for every interleaving of a server and a client.  At
most one `DrainComplete` is sent.  Once the fence is produced no lease of the
generation is outstanding, and every lease of it that exists later existed
and was released then.  Every fence, in a channel or sent, is `-1` if no
stream was recorded and otherwise the largest recorded stream.  A client
whose `processRuntime` received a fence and returned without a semantic error
and without being forced has dispatched exactly the streams that were opened,
which are the streams that were recorded. -/
theorem drain_fence_exact (reachable : (runs σ gen).Reachable state) :
    state.server.sent.length ≤ 1 ∧
    (∀ (ref : RetirementRef) (cell : Retirement),
      state.server.pool.retirementCells[ref]? = some cell →
      cell.conn = gen → cell.drainSent = true →
      (∀ lease, ¬ state.server.pool.Outstanding gen lease) ∧
      ∀ later, (runs σ gen).Reaches state later →
        ∀ (lease : LeaseRef) (held : TCPLease),
          later.server.pool.leaseCells[lease]? = some held →
          held.conn = gen →
          state.server.pool.leaseCells[lease]? = some held ∧
            held.state = .released) ∧
    (∀ (ref : RetirementRef) (cell : Retirement) (fence : Int),
      state.server.pool.retirementCells[ref]? = some cell →
      cell.conn = gen → cell.tcpDrained = some fence →
      IsFence state.server.recorded fence) ∧
    (∀ fence ∈ state.server.sent, IsFence state.server.recorded fence) ∧
    (∀ fence, state.client.process = .returned false →
      state.client.received = some fence →
      state.client.runtime.clientForced = false →
      state.client.accept.dispatched =
        (List.range state.server.opened).map streamID ∧
      ∀ id, id ∈ state.client.accept.dispatched ↔
        id ∈ state.server.recorded) := by
  have server := server_reachable reachable
  have announced := Server.announced_of_reachable server
  have recorded := Server.recorded_of_reachable server
  refine ⟨?_, ?_, ?_, ?_, ?_⟩
  · have single := (Server.once_of_reachable server).single
    omega
  · intro ref cell found owner sent
    have produced : state.server.Produced gen := ⟨ref, cell, found, owner, sent⟩
    have drained := produced.drained server
    refine ⟨fun lease outstanding => outstanding.not_drained drained, ?_⟩
    intro later reaches lease held laterFound heldOwner
    exact produced.leases_kept server (server_reaches reaches) laterFound
      heldOwner
  · intro ref cell fence found owner full
    have produced := Server.produced_of_channel server found owner full
    rw [announced.channel ref cell found owner fence full]
    exact recorded.isFence (produced.drained server)
  · intro fence sent
    exact (Server.carries_isFence server (.inr sent)).2.1
  · intro fence returned received unforced
    have sound := clientSound_of_reachable reachable
    have sent := sound.heard.received fence received
    obtain ⟨_, isFence, allRecorded⟩ :=
      Server.carries_isFence server (.inr sent)
    have succeeded : state.client.process.succeeded = true := by
      rw [returned]
      rfl
    have got : state.client.received ≠ none := by
      rw [received]
      nofun
    have reached : state.client.runtime.graceful = true := by
      rcases sound.explained.success succeeded got with ⟨graceful, _⟩ | forced
      · exact graceful
      · cases unforced.symm.trans forced
    obtain ⟨set, atFence⟩ := of_decide_eq_true reached
    have same := sound.held.value set
    rw [received] at same
    rw [← Option.some.inj same] at atFence
    have all := dispatched_of_fence sound.inOrder isFence
      recorded.recordedOpened allRecorded atFence
    refine ⟨all, ?_⟩
    intro id
    rw [all]
    constructor
    · intro member
      obtain ⟨n, inside, rfl⟩ := List.mem_map.mp member
      exact allRecorded n (List.mem_range.mp inside)
    · intro member
      obtain ⟨n, inside, rfl⟩ := recorded.recordedOpened id member
      exact List.mem_map.mpr ⟨n, List.mem_range.mpr inside, rfl⟩

/-- A new pool on the server, and a runtime that was just installed. -/
def sampleStart : Connection UInt64 where
  server := ⟨ConnectionPool.samplePool, fun _ => .idle, 0, [],
    ⟨.running, none, none, none⟩, []⟩
  client := .initial

/-- One generation is registered, serves one stream while the client asks for
a drain, and is drained. -/
def sampleSchedule : List ConnectionOp :=
  [.server (.pool .beginPending), .server (.pool (.bind 0 0)),
    .server (.pool (.commit 0)), .server (.pool (.beginTCPAdmission [0])),
    .server (.pool (.next 0)), .server (.openStream 0),
    .client (.check .fit), .client .drainCommand,
    .client (.writeDrainRequest true false), .server .drainRequest,
    .client .commitDrainRequest, .client (.requestDrain false),
    .server (.recordStream 0), .server (.recordStep 0),
    .server (.recordStep 0), .server (.recordStep 0),
    .server (.pool (.commitLease 0)), .client .acceptStream,
    .client .dispatch, .server (.pool (.releaseLease 0)),
    .server .receiveFence, .server (.writeDrainComplete true false),
    .client .readDrainComplete, .client .handleDrainComplete,
    .client (.awaitFence .ready), .client .setFence, .client .acceptError,
    .client .checkGraceful, .client .closeAcceptDone, .client .handlerDone,
    .client (.awaitAccept .ready), .client (.awaitHandlers .ready),
    .client (.awaitQuiescence .ready), .client .checkControl,
    .client .checkPending, .client .checkTransport, .client .checkAcceptErr,
    .client .cleanupCancel, .client .cleanupDone]

def sampleDrained : Connection UInt64 :=
  sampleSchedule.foldl (apply 0) sampleStart

theorem sampleDrained_reachable : (runs UInt64 0).Reachable sampleDrained := by
  have start : (runs UInt64 0).Reachable sampleStart := by
    refine .start ⟨⟨?_, fun _ => rfl, rfl, rfl, rfl, rfl⟩, rfl⟩
    exact ⟨_, _, _, _, fun _ => ⟨_, _, rfl⟩, rfl⟩
  have allows : TransitionSystem.Allows (Enabled 0) (apply 0) sampleStart
      sampleSchedule := by
    decide +kernel
  have steps : ∀ (state : Connection UInt64) (op : ConnectionOp),
      state.Enabled 0 op → (runs UInt64 0).step state (state.apply 0 op) :=
    fun _ op enabled => ⟨op, enabled, rfl⟩
  exact start.schedule steps allows

theorem drain_fence_exact_sample :
    sampleDrained.server.sent = [1] ∧
      sampleDrained.client.process = .returned false ∧
      sampleDrained.client.accept.dispatched = [1] := by
  have returned : sampleDrained.client.process = .returned false := by
    decide +kernel
  have dispatched := (drain_fence_exact sampleDrained_reachable).2.2.2.2 1
    returned (by decide +kernel) (by decide +kernel)
  have opened : sampleDrained.server.opened = 1 := by
    decide +kernel
  refine ⟨by decide +kernel, returned, ?_⟩
  rw [dispatched.1, opened]
  rfl

end Connection

end QMux.Drain
