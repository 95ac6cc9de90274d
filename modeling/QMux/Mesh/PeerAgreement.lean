import QMux.Mesh.PeerServers
import QMux.Support.Cells

/-!
# Agreement between two peers

The server with the larger identity accepts the other's connections and has
its own refused, so only connections dialled by the server with the smaller
identity become current.  On each side this is a property of the registry
relative to the connections there are: an outbound generation of the other
server is that of a connection dialled here, an inbound one that of a
connection dialled there, and an outbound one is current only after the other
server has accepted it.
-/

namespace QMux.Mesh

open Function Support Registry

/-! ## One registry -/

section Registry

variable {id : Side → String} {connections more : List PeerConnection}
  {side : Side} {r next : Registry} {ref : GenRef}

/-- A connection with this outbound generation was dialled on the side. -/
def DialledAs (connections : List PeerConnection) (side : Side)
    (ref : GenRef) : Prop :=
  ∃ connection ∈ connections, connection.dialler = side ∧
    connection.outbound = ref

/-- A connection with this inbound generation was dialled on the side. -/
def AcceptedAs (connections : List PeerConnection) (side : Side)
    (ref : GenRef) : Prop :=
  ∃ connection ∈ connections, connection.dialler = side ∧
    connection.inbound = some ref

/-- What a generation of the other server has to be. -/
def Fits (id : Side → String) (connections : List PeerConnection)
    (side : Side) (ref : GenRef) (generation : Generation) : Prop :=
  generation.key = some (.peer (id side.other)) →
    (generation.direction = .outbound → DialledAs connections side ref ∧
      (generation.phase = .current → id side < id side.other)) ∧
    (generation.direction = .inbound → id side.other < id side ∧
      AcceptedAs connections side.other ref)

structure Agrees (id : Side → String) (connections : List PeerConnection)
    (side : Side) (r : Registry) : Prop where
  ordered : r.Ordered
  fits : ∀ ref, Fits id connections side ref (r.gens ref)
  arbitrated : ∀ arb, r.arbitrations.get (id side.other) = some arb →
    id side.other < id side ∧
      AcceptedAs connections side.other (r.arbs arb).inbound

/-- A dial and an inbound registration are those of a connection, and an
outbound generation is published if the other server has accepted it. -/
def agreement (id : Side → String) (connections : List PeerConnection)
    (side : Side) : Permit where
  dials r peerID := peerID = id side.other → DialledAs connections side r.nextID
  joins _ ref peerID _ := peerID = id side.other → id side.other < id side ∧
    AcceptedAs connections side.other ref
  publishes r ref := (r.gens ref).key = some (.peer (id side.other)) →
    (r.gens ref).direction = .outbound → id side < id side.other
  ends _ := True

variable {generation : Generation} {phase : Phase} {start : Registry}

theorem Fits.of_key (other : generation.key ≠ some (.peer (id side.other))) :
    Fits id connections side ref generation :=
  fun named => absurd named other

theorem Fits.rephase (fits : Fits id connections side ref generation)
    (left : phase ≠ .current) :
    Fits id connections side ref { generation with phase := phase } := by
  intro named
  obtain ⟨outbound, inbound⟩ := fits named
  refine ⟨?_, inbound⟩
  intro direction
  exact ⟨(outbound direction).1, fun current => absurd current left⟩

theorem Agrees.moved (agrees : Agrees id connections side r)
    (ordered : next.Ordered) (moved : Registry.Moved r next ref)
    (same : Registry.SameArbitrations r next)
    (fits : Fits id connections side ref (next.gens ref)) :
    Agrees id connections side next := by
  refine ⟨ordered, ?_, ?_⟩
  · intro other
    by_cases here : other = ref
    · subst here
      exact fits
    · rw [moved.gens other here]
      exact agrees.fits other
  · rw [same.arbitrations, same.arbs]
    exact agrees.arbitrated

theorem Agrees.congr (agrees : Agrees id connections side r)
    (ordered : next.Ordered) (gens : next.gens = r.gens)
    (arbitrated : ∀ arb, next.arbitrations.get (id side.other) = some arb →
        (r.arbitrations.get (id side.other) = some arb ∧
          (next.arbs arb).inbound = (r.arbs arb).inbound) ∨
        (id side.other < id side ∧
          AcceptedAs connections side.other (next.arbs arb).inbound)) :
    Agrees id connections side next := by
  refine ⟨ordered, ?_, ?_⟩
  · rw [gens]
    exact agrees.fits
  · intro arb live
    rcases arbitrated arb live with ⟨before, same⟩ | new
    · rw [same]
      exact agrees.arbitrated arb before
    · exact new

theorem Fits.join {peerID : String}
    (inbound : generation.direction = .inbound)
    (accepted : peerID = id side.other → id side.other < id side ∧
      AcceptedAs connections side.other ref) :
    Fits id connections side ref { generation with
      role := .peer, phase := phase, peerID := peerID } := by
  intro named
  have peer : peerID = id side.other := (Generation.peer_of_key named).2
  refine ⟨?_, fun _ => accepted peer⟩
  intro outbound
  cases inbound.symm.trans outbound

theorem agrees_keptBy (id : Side → String)
    (connections : List PeerConnection) (side : Side) :
    Registry.KeptBy (agreement id connections side)
      (Agrees id connections side) where
  counters := fun agrees _ _ _ => agrees.congr
    (ordered_keptBy.counters agrees.ordered _ _ _) rfl
    fun _ live => .inl ⟨live, rfl⟩
  enter := by
    intro r agrees
    apply agrees.moved agrees.ordered.entered
      (moved_newGenerationLocked r _) ⟨rfl, rfl, rfl, rfl⟩
    apply Fits.of_key
    rw [show (r.newGenerationLocked inboundPending).gens r.nextID =
      inboundPending from update_self _ _ _]
    intro named
    cases named
  dial := by
    intro r agrees peerID dials free
    have vacant := vacant_of_peerTaken free
    have moved : Registry.Moved r
        ((r.newGenerationLocked (outboundPeer peerID)).prepareLocked
          r.nextID (.peer peerID) "" (outboundPeer peerID))
        r.nextID := by
      apply (moved_newGenerationLocked r _).trans (moved_prepareLocked vacant)
      intro target entry found
      exact ⟨entry, found⟩
    apply agrees.moved (ordered_keptBy.dial agrees.ordered peerID
      trivial free) moved ⟨rfl, rfl, rfl, rfl⟩
    rw [prepareLocked_gens]
    intro named
    have peer : peerID = id side.other := (Generation.peer_of_key named).2
    refine ⟨fun _ => ⟨dials peer, ?_⟩, ?_⟩
    · intro current
      cases current
    · intro inbound
      cases inbound
  client := by
    intro r agrees ref instanceID groupID owned unknown free
    apply agrees.moved
      (ordered_keptBy.client agrees.ordered ref instanceID groupID
      owned unknown free) (moved_prepareLocked fun entry found =>
      (clientTaken_none free entry found).2.2) ⟨rfl, rfl, rfl, rfl⟩
    apply Fits.of_key
    rw [prepareLocked_gens]
    intro named
    cases named
  join := by
    intro r agrees ref peerID preferred joins owned unknown free
    apply agrees.moved (ordered_keptBy.join
      agrees.ordered ref peerID preferred trivial owned unknown free)
      (moved_prepareLocked (vacant_of_peerTaken free)) ⟨rfl, rfl, rfl, rfl⟩
    rw [prepareLocked_gens]
    exact .join (agrees.ordered.unknown ref owned unknown) joins
  arbitrate := by
    intro r agrees ref peerID entry loser joins owned unknown found prepared
      outbound
    refine agrees.congr (agrees.ordered.beginArbitration
      ⟨entry, found, prepared⟩ outbound) rfl ?_
    intro arb live
    rcases agrees.ordered.beginArbitration_live live with
      ⟨here, _, written⟩ | ⟨before, same⟩
    · right
      rw [written]
      exact joins here.symm
    · left
      rw [same]
      exact ⟨before, rfl⟩
  complete := by
    intro r ended before agrees pruned arb live owned unknown free
    apply agrees.moved (ordered_keptBy.complete
      before.ordered agrees.ordered pruned arb live owned unknown free)
      (moved_prepareLocked (pruned.vacant free)) ⟨rfl, rfl, rfl, rfl⟩
    rw [prepareLocked_gens]
    apply Fits.join
    · rw [pruned.direction]
      exact before.ordered.unknown _ owned unknown
    · intro peer
      rw [peer] at live
      exact before.arbitrated arb live
  publish := by
    intro r agrees ref key entry publishes owned named found prepared vacant
    apply agrees.moved (agrees.ordered.published found prepared vacant)
      (moved_published found prepared vacant) ⟨rfl, rfl, rfl, rfl⟩
    rw [published_gens]
    intro peer
    obtain ⟨outbound, inbound⟩ := agrees.fits ref peer
    refine ⟨?_, inbound⟩
    intro direction
    exact ⟨(outbound direction).1, fun _ => publishes peer direction⟩
  retire := by
    intro r agrees ref _
    apply agrees.moved (agrees.ordered.retireLocked ref)
      (moved_retireLocked r ref) (retireLocked_sameArbitrations r ref)
    rw [retireLocked_gens]
    exact (agrees.fits ref).rephase (by simp)
  drop := by
    intro r agrees ref _
    apply agrees.moved (agrees.ordered.dropLocked ref)
      (moved_dropLocked r ref) (dropLocked_sameArbitrations r ref)
    rw [dropLocked_gens]
    exact (agrees.fits ref).rephase (by simp)
  loser := fun _ _ _ _ => trivial
  released := by
    intro r agrees peerID arb _
    refine agrees.congr (agrees.ordered.loserReleased arb) rfl ?_
    intro other live
    left
    refine ⟨live, ?_⟩
    change (Function.update r.arbs arb _ other).inbound = _
    by_cases here : other = arb
    · subst here
      rw [update_self]
    · rw [update_of_ne here]
  ended := by
    intro r agrees arb
    refine agrees.congr (agrees.ordered.ended arb) rfl ?_
    intro other live
    exact .inl ⟨FiniteMap.get_of_get_delete live, rfl⟩
  stop := by
    intro r agrees
    refine agrees.congr agrees.ordered.stopBegin rfl ?_
    intro other live
    cases (FiniteMap.get_empty _).symm.trans live

/-- Directions are kept from `start` on. -/
structure Followed (start r : Registry) : Prop where
  ordered : r.Ordered
  nextID : start.nextID ≤ r.nextID
  direction : ∀ ref < start.nextID,
    (r.gens ref).direction = (start.gens ref).direction

theorem Followed.moved (followed : Followed start r) (ordered : next.Ordered)
    (moved : Registry.Moved r next ref)
    (direction : ref < r.nextID →
      (next.gens ref).direction = (r.gens ref).direction) :
    Followed start next := by
  refine ⟨ordered, le_trans followed.nextID moved.nextID, ?_⟩
  intro other earlier
  by_cases here : other = ref
  · subst here
    rw [direction (lt_of_lt_of_le earlier followed.nextID)]
    exact followed.direction other earlier
  · rw [moved.gens other here]
    exact followed.direction other earlier

theorem Followed.congr (followed : Followed start r) (ordered : next.Ordered)
    (gens : next.gens = r.gens) (nextID : next.nextID = r.nextID) :
    Followed start next := by
  refine ⟨ordered, ?_, ?_⟩
  · rw [nextID]
    exact followed.nextID
  · rw [gens]
    exact followed.direction

theorem followed_keptBy (start : Registry) :
    Registry.KeptBy .all (Followed start) where
  counters := fun followed _ _ _ => followed.congr
    (ordered_keptBy.counters followed.ordered _ _ _) rfl rfl
  enter := fun {r} followed => followed.moved followed.ordered.entered
    (moved_newGenerationLocked r _)
    fun wrong => absurd wrong (lt_irrefl _)
  dial := by
    intro r followed peerID _ free
    refine Followed.moved followed (ordered_keptBy.dial
      followed.ordered peerID trivial free)
      ((moved_newGenerationLocked r _).trans
        (moved_prepareLocked (vacant_of_peerTaken free)) ?_)
      fun wrong => absurd wrong (lt_irrefl _)
    intro target entry found
    exact ⟨entry, found⟩
  client := fun {r} followed ref instanceID groupID owned unknown free =>
    followed.moved (ordered_keptBy.client followed.ordered ref
      instanceID groupID owned unknown free)
      (moved_prepareLocked fun entry found =>
        (clientTaken_none free entry found).2.2) fun _ => by
      rw [prepareLocked_gens]
  join := fun {r} followed ref peerID preferred _ owned unknown free =>
    followed.moved (ordered_keptBy.join followed.ordered ref peerID
      preferred trivial owned unknown free)
      (moved_prepareLocked (vacant_of_peerTaken free))
      fun _ => by rw [prepareLocked_gens]
  arbitrate := fun followed _ _ entry _ _ _ _ found prepared outbound =>
    followed.congr (followed.ordered.beginArbitration
      ⟨entry, found, prepared⟩ outbound) rfl rfl
  complete := fun {r ended} before followed pruned arb live owned unknown
      free => followed.moved (ordered_keptBy.complete before.ordered
        followed.ordered pruned arb live owned unknown free)
      (moved_prepareLocked (pruned.vacant free))
      fun _ => by rw [prepareLocked_gens]
  publish := fun {r} followed ref key entry _ _ _ found prepared vacant =>
    followed.moved (followed.ordered.published found prepared vacant)
      (moved_published found prepared vacant)
      fun _ => by rw [published_gens]
  retire := fun {r} followed ref _ => followed.moved
    (followed.ordered.retireLocked ref) (moved_retireLocked r ref)
    fun _ => by rw [retireLocked_gens]
  drop := fun {r} followed ref _ => followed.moved
    (followed.ordered.dropLocked ref) (moved_dropLocked r ref)
    fun _ => by rw [dropLocked_gens]
  loser := fun _ _ _ _ => trivial
  released := fun followed _ arb _ =>
    followed.congr (followed.ordered.loserReleased arb) rfl rfl
  ended := fun followed arb =>
    followed.congr (followed.ordered.ended arb) rfl rfl
  stop := fun followed => followed.congr followed.ordered.stopBegin rfl rfl

theorem followed_run (ordered : r.Ordered) (op : RegistryOp) :
    Followed r (r.run op) :=
  (followed_keptBy r).run ⟨ordered, le_refl _, fun _ _ => rfl⟩
    (within_all op)

/-! ### More connections -/

/-- Connections are added, and keep their generations. -/
def Extends (connections more : List PeerConnection) : Prop :=
  ∀ connection ∈ connections, ∃ later ∈ more,
    later.dialler = connection.dialler ∧
    later.outbound = connection.outbound ∧
    ∀ ref, connection.inbound = some ref → later.inbound = some ref

theorem Extends.dialledAs (extend : Extends connections more)
    (dialled : DialledAs connections side ref) : DialledAs more side ref := by
  obtain ⟨connection, member, here, outbound⟩ := dialled
  obtain ⟨later, present, dialler, same, _⟩ := extend connection member
  exact ⟨later, present, dialler.trans here, same.trans outbound⟩

theorem Extends.acceptedAs (extend : Extends connections more)
    (accepted : AcceptedAs connections side ref) :
    AcceptedAs more side ref := by
  obtain ⟨connection, member, here, inbound⟩ := accepted
  obtain ⟨later, present, dialler, _, same⟩ := extend connection member
  exact ⟨later, present, dialler.trans here, same ref inbound⟩

theorem Agrees.extend (agrees : Agrees id connections side r)
    (extend : Extends connections more) : Agrees id more side r := by
  refine ⟨agrees.ordered, ?_, ?_⟩
  · intro ref named
    obtain ⟨outbound, inbound⟩ := agrees.fits ref named
    refine ⟨?_, ?_⟩
    · intro direction
      exact ⟨extend.dialledAs (outbound direction).1, (outbound direction).2⟩
    · intro direction
      exact ⟨(inbound direction).1, extend.acceptedAs (inbound direction).2⟩
  · intro arb live
    obtain ⟨order, accepted⟩ := agrees.arbitrated arb live
    exact ⟨order, extend.acceptedAs accepted⟩

theorem Extends.refl (connections : List PeerConnection) :
    Extends connections connections :=
  fun connection member => ⟨connection, member, rfl, rfl, fun _ same => same⟩

theorem Extends.append (connections : List PeerConnection)
    (connection : PeerConnection) :
    Extends connections (connections ++ [connection]) :=
  fun old member => ⟨old, List.mem_append_left _ member, rfl, rfl,
    fun _ same => same⟩

theorem Extends.set {at_ : ConnectionRef} {connection later : PeerConnection}
    (found : connections[at_]? = some connection)
    (dialler : later.dialler = connection.dialler)
    (outbound : later.outbound = connection.outbound)
    (inbound : ∀ ref, connection.inbound = some ref →
      later.inbound = some ref) :
    Extends connections (connections.set at_ later) := by
  intro old member
  obtain ⟨index, present⟩ := List.mem_iff_getElem?.mp member
  by_cases here : index = at_
  · subst here
    cases Option.some.inj (found.symm.trans present)
    refine ⟨later, ?_, dialler, outbound, inbound⟩
    apply List.mem_iff_getElem?.mpr
    exact ⟨index, by rw [getElem?_set_eq found, if_pos rfl]⟩
  · refine ⟨old, ?_, rfl, rfl, fun _ same => same⟩
    apply List.mem_iff_getElem?.mpr
    exact ⟨index, by rw [getElem?_set_eq found, if_neg here]; exact present⟩

end Registry

/-! ## Both servers -/

/-- The accepting server has taken the registration. -/
def HandlerStage.registered : HandlerStage → Bool
  | .arbitrating _ => true
  | .prepared => true
  | .acknowledged => true
  | .committed => true
  | _ => false

/-- What is known of a connection. -/
structure Placed (id : Side → String) (registries : Side → Registry)
    (connection : PeerConnection) : Prop where
  outbound :
    connection.outbound < (registries connection.dialler).nextID ∧
    ((registries connection.dialler).gens connection.outbound).direction =
      .outbound
  inbound : ∀ ref, connection.inbound = some ref →
    ref < (registries connection.dialler.other).nextID ∧
    ((registries connection.dialler.other).gens ref).direction = .inbound
  opened : connection.stage = .opened → connection.inbound = none
  registered : connection.stage.registered = true →
    id connection.dialler < id connection.dialler.other

theorem Placed.follow {id : Side → String} {registries : Side → Registry}
    {connection : PeerConnection} {side : Side} {r : Registry}
    (placed : Placed id registries connection)
    (followed : Followed (registries side) r) :
    Placed id (Function.update registries side r) connection := by
  have kept : ∀ other ref direction, ref < (registries other).nextID ∧
        ((registries other).gens ref).direction = direction →
      ref < (Function.update registries side r other).nextID ∧
        ((Function.update registries side r other).gens ref).direction =
          direction := by
    rintro other ref direction ⟨fresh, same⟩
    by_cases here : other = side
    · subst here
      rw [update_self]
      refine ⟨lt_of_lt_of_le fresh followed.nextID, ?_⟩
      rw [followed.direction ref fresh]
      exact same
    · rw [update_of_ne here]
      exact ⟨fresh, same⟩
  refine ⟨kept _ _ _ placed.outbound, ?_, placed.opened, placed.registered⟩
  intro ref inbound
  exact kept _ _ _ (placed.inbound ref inbound)

namespace PeerPair

variable {pair : PeerPair} {side : Side} {r : Registry}

structure Agreed (pair : PeerPair) : Prop where
  order : pair.serverID .low < pair.serverID .high
  dials : ∀ side, pair.Dials side
  agrees : ∀ side,
    Agrees pair.serverID pair.connections side (pair.registries side)
  placed : ∀ connection ∈ pair.connections,
    Placed pair.serverID pair.registries connection

theorem Agreed.update (agreed : pair.Agreed)
    {connections : List PeerConnection}
    (extend : Extends pair.connections connections)
    (agrees : Agrees pair.serverID connections side r)
    (followed : Followed (pair.registries side) r)
    (placed : ∀ connection ∈ connections, connection ∈ pair.connections ∨
      Placed pair.serverID (Function.update pair.registries side r)
        connection) :
    { pair.setRegistry side r with connections := connections }.Agreed := by
  refine ⟨agreed.order, agreed.dials, ?_, ?_⟩
  · intro other
    change Agrees pair.serverID connections other
      (Function.update pair.registries side r other)
    by_cases here : other = side
    · subst here
      rw [update_self]
      exact agrees
    · rw [update_of_ne here]
      exact (agreed.agrees other).extend extend
  · intro connection member
    rcases placed connection member with old | new
    · exact (agreed.placed connection old).follow followed
    · exact new

theorem Agreed.setRegistry (agreed : pair.Agreed)
    (agrees : Agrees pair.serverID pair.connections side r)
    (followed : Followed (pair.registries side) r) :
    (pair.setRegistry side r).Agreed :=
  agreed.update (.refl _) agrees followed fun _ member => .inl member

theorem Agreed.followed (agreed : pair.Agreed) (side : Side) :
    Followed (pair.registries side) (pair.registries side) :=
  ⟨(agreed.agrees side).ordered, le_refl _, fun _ _ => rfl⟩

theorem setRegistry_self (pair : PeerPair) (side : Side) :
    pair.setRegistry side (pair.registries side) = pair := by
  unfold setRegistry
  rw [update_eq_self]

theorem Agreed.dial (agreed : pair.Agreed) (side : Side) :
    (pair.dial side).Agreed := by
  unfold PeerPair.dial
  rcases beginOutboundPeer_cases (pair.registries side)
      (pair.peerID side) with ⟨failure, refused⟩ | ⟨_, _, _, dialed⟩
  · rw [refused]
    dsimp only
    rw [setRegistry_self]
    exact agreed
  have result :
    (pair.registries side).run (.beginOutboundPeer (pair.peerID side)) =
    (pair.registries side).dialed (pair.peerID side) := congrArg Prod.snd dialed
  rw [dialed]
  dsimp only
  have extend := Extends.append pair.connections
    ⟨side, (pair.registries side).nextID, none, .opened⟩
  have followed := followed_run (agreed.agrees side).ordered
    (.beginOutboundPeer (pair.peerID side))
  rw [result] at followed
  apply agreed.update extend _ followed
  · intro connection member
    rcases List.mem_append.mp member with old | new
    · exact .inl old
    rw [List.mem_singleton] at new
    subst new
    right
    refine ⟨?_, ?_, fun _ => rfl, ?_⟩
    · dsimp only
      rw [update_self, dialed_gens]
      exact ⟨Nat.lt_succ_self _, rfl⟩
    · intro ref inbound
      cases inbound
    · intro registered
      cases registered
  · rw [← result]
    apply (agrees_keptBy _ _ side).run ((agreed.agrees side).extend extend)
    intro _
    exact ⟨_, List.mem_append_right _ List.mem_cons_self, rfl, rfl⟩

variable {at_ : ConnectionRef} {connection : PeerConnection}

theorem Agreed.handled (agreed : pair.Agreed) {later : PeerConnection}
    (found : pair.connections[at_]? = some connection)
    (dialler : later.dialler = connection.dialler)
    (outbound : later.outbound = connection.outbound)
    (inbound : ∀ ref, connection.inbound = some ref → later.inbound = some ref)
    (agrees : Agrees pair.serverID pair.connections
      connection.dialler.other r)
    (followed : Followed (pair.registries connection.dialler.other) r)
    (accepted : ∀ ref, later.inbound = some ref →
      connection.inbound = some ref ∨
        (ref < r.nextID ∧ (r.gens ref).direction = .inbound))
    (opened : later.stage = .opened → later.inbound = none)
    (registered : later.stage.registered = true →
      pair.serverID connection.dialler <
        pair.serverID connection.dialler.other) :
    ((pair.setRegistry connection.dialler.other r).setConnection at_
      later).Agreed := by
  have extend := Extends.set found dialler outbound inbound
  apply agreed.update extend (agrees.extend extend) followed
  intro other member
  rcases List.mem_or_eq_of_mem_set member with old | rfl
  · exact .inl old
  right
  have placed := (agreed.placed connection
    (List.mem_of_getElem? found)).follow followed
  refine ⟨?_, ?_, opened, ?_⟩
  · rw [dialler, outbound]
    exact placed.outbound
  · rw [dialler]
    intro ref held
    rcases accepted ref held with before | new
    · exact placed.inbound ref before
    · rw [update_self]
      exact new
  · rw [dialler]
    exact registered

theorem Agreed.staged (agreed : pair.Agreed) {stage : HandlerStage}
    (found : pair.connections[at_]? = some connection)
    (agrees : Agrees pair.serverID pair.connections
      connection.dialler.other r)
    (followed : Followed (pair.registries connection.dialler.other) r)
    (left : stage ≠ .opened)
    (registered : stage.registered = true → pair.serverID connection.dialler <
        pair.serverID connection.dialler.other) :
    ((pair.setRegistry connection.dialler.other r).setConnection at_
      { connection with stage := stage }).Agreed :=
  agreed.handled found rfl rfl (fun _ same => same) agrees followed
    (fun _ same => .inl same) (fun wrong => absurd wrong left) registered

theorem Agreed.run (agreed : pair.Agreed) (side : Side) (op : RegistryOp)
    (within : op.Within (agreement pair.serverID pair.connections side)
      (pair.registries side)) :
    Agrees pair.serverID pair.connections side
        ((pair.registries side).run op) ∧
      Followed (pair.registries side) ((pair.registries side).run op) :=
  ⟨(agrees_keptBy _ _ side).run (agreed.agrees side) within,
    followed_run (agreed.agrees side).ordered op⟩

section Handler

variable {at_ : ConnectionRef} {connection : PeerConnection}
  (found : pair.connections[at_]? = some connection)
include found

theorem Agreed.commitOutbound (agreed : pair.Agreed)
    (acked : connection.acked = true) :
    (pair.commitOutbound connection).Agreed := by
  have registered : connection.stage.registered = true := by
    unfold PeerConnection.acked at acked
    rcases of_decide_eq_true acked with stage | stage
    · rw [stage]
      rfl
    · rw [stage]
      rfl
  have order := (agreed.placed connection
    (List.mem_of_getElem? found)).registered registered
  obtain ⟨agrees, followed⟩ :=
    agreed.run connection.dialler (.commitOutboundPeer connection.outbound)
      (fun _ _ => order)
  exact agreed.setRegistry agrees followed

theorem Agreed.accept (agreed : pair.Agreed)
    (opened : connection.stage = .opened) :
    (pair.accept at_ connection).Agreed := by
  have placed := agreed.placed connection (List.mem_of_getElem? found)
  obtain ⟨agrees, followed⟩ :=
    agreed.run connection.dialler.other .beginInbound trivial
  unfold PeerPair.accept
  dsimp only
  rcases beginInbound_cases (pair.registries connection.dialler.other)
    with ⟨failure, refused⟩ | ⟨_, begun⟩
  · rw [refused]
    exact agreed.staged found (agreed.agrees _) (agreed.followed _) (by simp)
      (by intro wrong; cases wrong)
  have result : (pair.registries connection.dialler.other).run .beginInbound =
    (pair.registries connection.dialler.other).begun := congrArg Prod.snd begun
  rw [result] at agrees followed
  rw [begun]
  dsimp only
  refine Agreed.handled agreed found rfl rfl ?_ agrees followed ?_ ?_ ?_
  · intro ref held
    rw [placed.opened opened] at held
    cases held
  · intro ref inbound
    cases inbound
    rw [begun_gens]
    exact .inr ⟨Nat.lt_succ_self _, rfl⟩
  all_goals
    intro wrong
    cases wrong

omit found in
theorem prepareInboundPeer_cases (dials : pair.Dials side) (inbound : GenRef) :
    (∃ failure, (pair.config side).prepareInboundPeer (pair.registries side)
      inbound (pair.peerID side) = (.error failure, pair.registries side)) ∨
    (pair.peerID side < pair.serverID side ∧
      ∃ result, (pair.config side).prepareInboundPeer (pair.registries side)
        inbound (pair.peerID side) = (result, (pair.registries side).run
          (.preparePeer inbound (pair.peerID side) true))) := by
  obtain ⟨peer, configured, address⟩ := dials
  unfold PeerConfig.prepareInboundPeer
  split
  · exact .inl ⟨_, rfl⟩
  rw [configured]
  dsimp only
  unfold PeerConfig.preferred
  rw [if_pos address]
  split
  · exact .inl ⟨_, rfl⟩
  rename_i preferred
  have order : pair.peerID side < pair.serverID side :=
    of_decide_eq_true (eq_true_of_ne_false preferred)
  refine .inr ⟨order, ?_⟩
  change ∃ result, _ = (result, ((pair.registries side).preparePeer inbound
    (pair.peerID side) true).2)
  rcases (pair.registries side).preparePeer inbound (pair.peerID side)
    true with ⟨failure | prepared, r⟩
  all_goals exact ⟨_, rfl⟩

theorem Agreed.register (agreed : pair.Agreed) {inbound : GenRef}
    (held : connection.inbound = some inbound) :
    (pair.register at_ connection inbound).Agreed := by
  have other : connection.dialler.other.other = connection.dialler := by
    cases connection.dialler <;> rfl
  have named : pair.peerID connection.dialler.other =
      pair.serverID connection.dialler := congrArg pair.serverID other
  unfold PeerPair.register
  dsimp only
  rw [← named]
  rcases prepareInboundPeer_cases (agreed.dials connection.dialler.other)
      inbound with ⟨failure, refused⟩ | ⟨order, result, prepared⟩
  · rw [refused]
    exact agreed.staged found (agreed.agrees _) (agreed.followed _) (by simp)
      (by intro wrong; cases wrong)
  obtain ⟨agrees, followed⟩ := agreed.run connection.dialler.other
    (.preparePeer inbound (pair.peerID connection.dialler.other) true) (by
      intro _
      exact ⟨order, connection, List.mem_of_getElem? found, other.symm, held⟩)
  rw [named] at order
  rw [prepared]
  rcases result with failure | ref | arb
  · exact agreed.staged found agrees followed (by simp)
      (by intro wrong; cases wrong)
  all_goals exact agreed.staged found agrees followed (by simp) fun _ => order

theorem Agreed.completeArbitration (agreed : pair.Agreed) {arb : ArbRef}
    (stage : connection.stage = .arbitrating arb) :
    (pair.completeArbitration at_ connection arb).Agreed := by
  have registered : connection.stage.registered = true := by
    rw [stage]
    rfl
  have order := (agreed.placed connection
    (List.mem_of_getElem? found)).registered registered
  obtain ⟨agrees, followed⟩ := agreed.run connection.dialler.other
    (.completeArbitration arb) trivial
  unfold PeerPair.completeArbitration
  dsimp only
  change Agrees _ _ _ ((pair.registries connection.dialler.other
    ).completeArbitration arb).2 at agrees
  change Followed _ ((pair.registries connection.dialler.other
    ).completeArbitration arb).2 at followed
  revert agrees followed
  rcases (pair.registries connection.dialler.other).completeArbitration arb
    with ⟨failure | ref, r⟩
  · intro agrees followed
    -- The handler cancels what is left of the arbitration.
    apply agreed.staged found _ _ (by simp) (by intro wrong; cases wrong)
    · exact (agrees_keptBy _ _ _).cancelArbitration agrees fun _ _ => trivial
    · exact (followed_keptBy _).cancelArbitration followed fun _ _ => trivial
  · intro agrees followed
    exact agreed.staged found agrees followed (by simp) fun _ => order

theorem Agreed.handle (agreed : pair.Agreed) (fails : Bool) :
    (pair.handle at_ connection fails).Agreed := by
  have placed := agreed.placed connection (List.mem_of_getElem? found)
  unfold PeerPair.handle
  split
  · rename_i stage
    exact agreed.accept found stage
  · rename_i held
    exact agreed.register found held
  · rename_i arb stage
    split
    · obtain ⟨agrees, followed⟩ := agreed.run connection.dialler.other
        (.cancelArbitration arb true) fun _ _ => trivial
      exact agreed.staged found agrees followed (by simp)
        (by intro wrong; cases wrong)
    · exact agreed.completeArbitration found stage
  · rename_i stage
    have order := placed.registered (by rw [stage]; rfl)
    have same := setRegistry_self pair connection.dialler.other
    have staged : ((pair.setRegistry connection.dialler.other
        (pair.registries connection.dialler.other)).setConnection at_
          { connection with
            stage := if fails then .ended else .acknowledged }).Agreed := by
      apply agreed.staged found (agreed.agrees _) (agreed.followed _)
      · split <;> simp
      · intro _
        exact order
    rw [same] at staged
    exact staged
  · rename_i inbound stage held
    have order := placed.registered (by rw [stage]; rfl)
    obtain ⟨agrees, followed⟩ := agreed.run connection.dialler.other
      (.commitReceiver inbound) (by
        intro _ outbound
        have direction := (placed.inbound inbound held).2
        cases direction.symm.trans outbound)
    exact agreed.staged found agrees followed (by simp) fun _ => order
  · exact agreed

end Handler

theorem Agreed.apply (agreed : pair.Agreed) {op : PeerOp}
    (enabled : pair.Enabled op) : (pair.apply op).Agreed := by
  cases op with dsimp only [PeerPair.apply]
  | dial side => exact agreed.dial side
  | handle ref fails =>
    split
    · exact agreed
    · rename_i connection found
      exact agreed.handle found fails
  | commitOutbound ref =>
    split
    · exact agreed
    rename_i connection found
    apply agreed.commitOutbound found
    change pair.ackedAt ref = true at enabled
    unfold ackedAt at enabled
    rw [found] at enabled
    exact enabled
  | other side op =>
    obtain ⟨agrees, followed⟩ := agreed.run side op (by
      cases op with
      | beginOutboundPeer peerID => exact fun same => absurd same enabled
      | preparePeer pending peerID preferred =>
        exact fun same => absurd same enabled
      | commitReceiver ref =>
        intro _ outbound
        cases (show _ = Direction.inbound from enabled).symm.trans outbound
      | commitOutboundPeer ref =>
        exact fun named => absurd named enabled
      | cancelArbitration arb abortInbound => exact fun _ _ => trivial
      | stopFinish generations => exact fun _ _ => trivial
      | _ => trivial)
    exact agreed.setRegistry agrees followed

theorem agreed_of_initial (initial : pair.Initial) : pair.Agreed := by
  refine ⟨initial.order, initial.dials, ?_, ?_⟩
  · intro side
    obtain ⟨maxPending, maxClients, maxPeers, new⟩ := initial.registries side
    rw [new, initial.connections]
    refine ⟨newRegistry_ordered _ _ _, ?_, ?_⟩
    · intro ref
      apply Fits.of_key
      intro named
      cases named
    · intro arb live
      cases (FiniteMap.get_empty _).symm.trans live
  · rw [initial.connections]
    intro connection member
    cases member

theorem agreed_of_reachable (reachable : runs.Reachable pair) :
    pair.Agreed := by
  apply reachable.invariant
  · intro state initial
    exact agreed_of_initial initial
  · rintro before after _ agreed ⟨op, enabled, rfl⟩
    exact agreed.apply enabled

variable {ref : GenRef}

section

variable (agreed : pair.Agreed)

include agreed

theorem Agreed.current_outbound
    (seated : (pair.registries side).Seated (.peer (pair.peerID side))
      .current ref)
    (outbound : ((pair.registries side).gens ref).direction = .outbound) :
    pair.serverID side < pair.serverID side.other ∧
      DialledAs pair.connections side ref := by
  obtain ⟨_, named, phase⟩ := seated
  obtain ⟨dialled, order⟩ := ((agreed.agrees side).fits ref named).1 outbound
  exact ⟨order phase, dialled⟩

theorem Agreed.current_inbound
    (seated : (pair.registries side).Seated (.peer (pair.peerID side))
      .current ref)
    (inbound : ((pair.registries side).gens ref).direction = .inbound) :
    pair.serverID side.other < pair.serverID side ∧
      AcceptedAs pair.connections side.other ref :=
  ((agreed.agrees side).fits ref seated.2.1).2 inbound

/-- The current generation of the smaller server is one it dialled. -/
theorem Agreed.low
    (seated : (pair.registries .low).Seated (.peer (pair.peerID .low))
      .current ref) :
    ((pair.registries .low).gens ref).direction = .outbound ∧
      DialledAs pair.connections .low ref := by
  cases direction : ((pair.registries .low).gens ref).direction with
  | outbound => exact ⟨rfl, (agreed.current_outbound seated direction).2⟩
  | inbound =>
    have order := (agreed.current_inbound seated direction).1
    exact absurd order (String.lt_asymm agreed.order)

/-- The current generation of the larger server is one dialled by the
other. -/
theorem Agreed.high
    (seated : (pair.registries .high).Seated (.peer (pair.peerID .high))
      .current ref) :
    ((pair.registries .high).gens ref).direction = .inbound ∧
      AcceptedAs pair.connections .low ref := by
  cases direction : ((pair.registries .high).gens ref).direction with
  | inbound => exact ⟨rfl, (agreed.current_inbound seated direction).2⟩
  | outbound =>
    have order := (agreed.current_outbound seated direction).1
    exact absurd order (String.lt_asymm agreed.order)

/-- A connection that is current somewhere was dialled by the smaller
server. -/
theorem Agreed.dialler (member : connection ∈ pair.connections)
    (current : pair.CurrentAt side connection) : connection.dialler = .low := by
  obtain ⟨outbound, inbound, _, _⟩ := agreed.placed connection member
  obtain ⟨ref, seated, end_⟩ := current
  cases dialler : connection.dialler with
  | low => rfl
  | high =>
    rw [dialler] at end_ outbound inbound
    cases side with
    | high =>
      rw [if_pos rfl] at end_
      rw [end_] at outbound
      cases (agreed.high seated).1.symm.trans outbound.2
    | low =>
      have accepted := (inbound ref end_).2
      cases (agreed.low seated).1.symm.trans accepted

end

/-- In every run, the current generation a server has of the other is its
outbound one on the server with the smaller identity and an inbound one from
there on the other.  No connection dialled by the larger server is current at
either end, and two current connections are dialled by the same server. -/
theorem peers_agree (reachable : runs.Reachable pair) :
    (∀ ref, (pair.registries .low).Seated (.peer (pair.peerID .low)) .current
        ref →
      ((pair.registries .low).gens ref).direction = .outbound ∧
        DialledAs pair.connections .low ref) ∧
    (∀ ref, (pair.registries .high).Seated (.peer (pair.peerID .high))
        .current ref →
      ((pair.registries .high).gens ref).direction = .inbound ∧
        AcceptedAs pair.connections .low ref) ∧
    (∀ connection ∈ pair.connections, connection.dialler = .high →
      ∀ side, ¬ pair.CurrentAt side connection) ∧
    ∀ first ∈ pair.connections, ∀ second ∈ pair.connections,
      pair.CurrentAt .low first → pair.CurrentAt .high second →
        first.dialler = second.dialler := by
  have agreed := agreed_of_reachable reachable
  refine ⟨fun _ => agreed.low, fun _ => agreed.high, ?_, ?_⟩
  · intro connection member high side current
    cases high.symm.trans (agreed.dialler member current)
  · intro first left second right here there
    rw [agreed.dialler left here, agreed.dialler right there]

/-- Both servers dial; the larger one's attempt loses the arbitration. -/
def sampleOps : List PeerOp :=
  [.dial .low, .dial .high, .handle 1 false, .handle 1 false,
    .handle 0 false, .handle 0 false, .other .high (.release 0),
    .handle 0 false, .handle 0 false, .commitOutbound 0, .handle 0 false]

def samplePair : PeerPair where
  config
    | .low => ⟨"east", [⟨"west", "west:443"⟩]⟩
    | .high => ⟨"west", [⟨"east", "east:443"⟩]⟩
  registries _ := .newRegistry 2 2 1
  connections := []

theorem samplePair_initial : samplePair.Initial := by
  refine ⟨by decide +kernel, ?_, fun _ => ⟨2, 2, 1, rfl⟩, rfl⟩
  rintro (_ | _)
  · exact ⟨⟨"west", "west:443"⟩, rfl, by decide⟩
  · exact ⟨⟨"east", "east:443"⟩, rfl, by decide⟩

theorem peers_agree_sample :
    (sampleOps.foldl apply samplePair).connections =
      [⟨.low, 0, some 1, .committed⟩, ⟨.high, 0, some 1, .ended⟩] ∧
    ∀ side, ¬ (sampleOps.foldl apply samplePair).CurrentAt side
      ⟨.high, 0, some 1, .ended⟩ := by
  have allowed : TransitionSystem.Allows Enabled apply samplePair
      sampleOps := by
    decide +kernel
  have reachable : runs.Reachable (sampleOps.foldl apply samplePair) := by
    apply TransitionSystem.Reachable.schedule _ (.start samplePair_initial)
      allowed
    intro pair op enabled
    exact ⟨op, enabled, rfl⟩
  have connections : (sampleOps.foldl apply samplePair).connections =
      [⟨.low, 0, some 1, .committed⟩, ⟨.high, 0, some 1, .ended⟩] := by
    decide +kernel
  refine ⟨connections, (peers_agree reachable).2.2.1 _ ?_ rfl⟩
  rw [connections]
  simp

end PeerPair

end QMux.Mesh
