import RdmaKVStore.UcConnections

/-!
# UC connections belong together

What one side knows of the other stays true: attributes are never changed once
they are handed out, a connection keeps the client that it has accepted, and a
connected client stays connected.  So every message and every copy of
attributes can be traced to the side that it came from, in whatever order
clients and server take their steps.
-/

namespace RdmaKVStore

variable {state before after : UcState} {number : Nat} {attrs : QpAttr}

namespace UcState

/-- The client has these attributes, and their address is its own. -/
structure Knows (state : UcState) (number : Nat) (attrs : QpAttr) : Prop where
  prepared : (state.clients number).phase ≠ .prepare
  has : (state.clients number).attrs = attrs
  owner : state.owner attrs.address = some (.client number)

/-- The connection has these attributes, has accepted the client and may have
sent them to it. -/
structure Serves (state : UcState) (number client : Nat) (attrs : QpAttr) :
    Prop where
  created : number < state.count
  peer : (state.sessions number).peer = some client
  has : (state.sessions number).attrs = attrs
  replied : (state.sessions number).phase.Replied
  owner : state.owner attrs.address = some (.session number)

/-- What is known in the one state is known in the other. -/
structure Extends (before after : UcState) : Prop where
  knows : ∀ number attrs, before.Knows number attrs → after.Knows number attrs
  serves : ∀ number client attrs, before.Serves number client attrs →
    after.Serves number client attrs
  connected : ∀ number, (before.clients number).phase = .connected →
    (after.clients number).phase = .connected
  owner : ∀ address owner, before.owner address = some owner →
    after.owner address = some owner
  count : before.count ≤ after.count

theorem Extends.of_client {client : UcClient}
    (clients : after.clients = Function.update before.clients number client)
    (sessions : after.sessions = before.sessions)
    (count : after.count = before.count)
    (owner : ∀ address owner, before.owner address = some owner →
      after.owner address = some owner)
    (kept : (before.clients number).phase ≠ .prepare →
      client.phase ≠ .prepare ∧
        client.attrs = (before.clients number).attrs)
    (stays : (before.clients number).phase = .connected →
      client.phase = .connected) : Extends before after where
  knows other attrs known := by
    refine ⟨?_, ?_, owner _ _ known.owner⟩ <;> rw [clients] <;>
      by_cases same : other = number
    · subst same
      rw [Function.update_self]
      exact (kept known.prepared).1
    · rw [Function.update_of_ne same]
      exact known.prepared
    · subst same
      rw [Function.update_self, (kept known.prepared).2]
      exact known.has
    · rw [Function.update_of_ne same]
      exact known.has
  serves other peer attrs serves :=
    ⟨count ▸ serves.created, sessions ▸ serves.peer, sessions ▸ serves.has,
      sessions ▸ serves.replied, owner _ _ serves.owner⟩
  connected other connected := by
    rw [clients]
    by_cases same : other = number
    · subst same
      rw [Function.update_self]
      exact stays connected
    · rwa [Function.update_of_ne same]
  owner := owner
  count := count.ge

theorem Extends.of_session {session : UcSession}
    (clients : after.clients = before.clients)
    (sessions : after.sessions =
      Function.update before.sessions number session)
    (count : before.count ≤ after.count)
    (owner : ∀ address owner, before.owner address = some owner →
      after.owner address = some owner)
    (kept : number < before.count →
      (before.sessions number).phase.Replied →
        session.phase.Replied ∧
          session.attrs = (before.sessions number).attrs ∧
          ∀ client, (before.sessions number).peer = some client →
            session.peer = some client) : Extends before after where
  knows other attrs known :=
    ⟨clients ▸ known.prepared, clients ▸ known.has,
      owner _ _ known.owner⟩
  serves other peer attrs serves := by
    by_cases same : other = number
    · subst same
      obtain ⟨replied, sameAttrs, samePeer⟩ :=
        kept serves.created serves.replied
      refine ⟨serves.created.trans_le count, ?_, ?_, ?_,
        owner _ _ serves.owner⟩ <;> rw [sessions, Function.update_self]
      · exact samePeer peer serves.peer
      · exact sameAttrs.trans serves.has
      · exact replied
    · refine ⟨serves.created.trans_le count, ?_, ?_, ?_,
        owner _ _ serves.owner⟩ <;>
        rw [sessions, Function.update_of_ne same]
      · exact serves.peer
      · exact serves.has
      · exact serves.replied
  connected other connected := clients ▸ connected
  owner := owner
  count := count

end UcState

theorem owner_update_of_free {owner : UInt16 × UInt32 → Option UcOwner}
    {address : UInt16 × UInt32} (free : owner address = none) (new : UcOwner)
    (other : UInt16 × UInt32) (old : UcOwner) (owned : owner other = some old) :
    Function.update owner address (some new) other = some old := by
  rw [Function.update_of_ne]
  · exact owned
  · rintro rfl
    rw [free] at owned
    cases owned

/-- What each step leaves as it was. -/
theorem UcSteps.extends (steps : UcSteps before after) :
    UcState.Extends before after := by
  have same : ∀ address owner, before.owner address = some owner →
    before.owner address = some owner := fun _ _ => id
  cases steps with
  | prepareClient fresh free =>
      exact .of_client rfl rfl rfl (owner_update_of_free free _)
        (fun prepared => absurd fresh prepared)
        fun connected => by rw [fresh] at connected; cases connected
  | prepareSession free =>
      exact .of_session rfl rfl (Nat.le_succ _) (owner_update_of_free free _)
        fun created => absurd created (lt_irrefl _)
  | connect place | clientWrite place | clientRead place | clientRtr place =>
      exact .of_client rfl rfl rfl same
        (fun _ => ⟨UcClientPhase.noConfusion, rfl⟩)
        fun connected => by rw [place] at connected; cases connected
  | clientRts place moved ends =>
      refine .of_client rfl rfl rfl same (fun _ => ⟨?_, rfl⟩)
        fun connected => by rw [place] at connected; cases connected
      rcases ends with rfl | rfl <;> exact UcClientPhase.noConfusion
  | clientFails place =>
      refine .of_client rfl rfl rfl same
        (fun _ => ⟨UcClientPhase.noConfusion, rfl⟩) fun connected => ?_
      rcases place with place | place <;> rw [place] at connected <;>
        cases connected
  | accept created place | sessionRead created place
  | sessionWrite created place =>
      exact .of_session rfl rfl le_rfl same fun _ replied => by
        rw [place] at replied
        exact replied.elim
  | sessionRtr =>
      exact .of_session rfl rfl le_rfl same
        fun _ _ => ⟨trivial, rfl, fun _ => id⟩
  | sessionRts created place moved ends =>
      refine .of_session rfl rfl le_rfl same
        fun _ _ => ⟨?_, rfl, fun _ => id⟩
      rcases ends with rfl | rfl <;> trivial
  | sessionFails created place ends =>
      refine .of_session rfl rfl le_rfl same
        fun _ _ => ⟨?_, rfl, fun _ => id⟩
      rcases ends with rfl | rfl <;> trivial
  | sendRequest | loseRequest | loseResponse | drop =>
      exact ⟨fun _ _ known => ⟨known.1, known.2, known.3⟩,
        fun _ _ _ serves =>
          ⟨serves.1, serves.2, serves.3, serves.4, serves.5⟩, fun _ => id,
        same, le_rfl⟩
  | receiveRequest | sendResponse =>
      exact .of_session rfl rfl le_rfl same
        fun _ replied => ⟨replied, rfl, fun _ => id⟩
  | receiveResponse =>
      exact .of_client rfl rfl rfl same (fun prepared => ⟨prepared, rfl⟩) id

namespace QueuePair

variable {qp next : QueuePair}

theorem not_receives_of_init (init : qp.state = .init) : ¬ qp.Receives := by
  rw [Receives, init]
  decide

theorem connectRtr_spec {remote : QpAttr} (uc : qp.type = .uc)
    (init : qp.state = .init) (moved : qp.connectRtr remote = some next) :
    next.type = .uc ∧ next.state = .rtr ∧ next.Targets remote := by
  rw [connectRtr_of_init uc init] at moved
  cases moved
  exact ⟨uc, rfl, rfl, rfl, rfl⟩

theorem connectRts_spec {own : QpAttr} (uc : qp.type = .uc)
    (rtr : qp.state = .rtr) (moved : qp.connectRts own = some next) :
    next.state = .rts ∧ next.values.sqPsn = own.psn.toUInt32 ∧
      ∀ remote, qp.Targets remote → next.Targets remote := by
  rw [connectRts_of_rtr uc rtr] at moved
  cases moved
  exact ⟨rfl, rfl, fun _ targets => ⟨targets.1, targets.2, targets.3⟩⟩

end QueuePair

/-- What is known of a client: its attributes are its own, its queue pair is
as far as its phase says, and what it has read and connected to is a connection
that has accepted it. -/
structure UcClient.Sound (state : UcState) (number : Nat)
    (client : UcClient) : Prop where
  known : client.phase ≠ .prepare → state.Knows number client.attrs
  inState : match client.phase with
    | .prepare => client.qp.state = .reset
    | .connect | .write | .read | .rtr =>
        client.qp.type = .uc ∧ client.qp.state = .init
    | .rts => client.qp.type = .uc ∧ client.qp.state = .rtr
    | .connected => client.qp.state = .rts
    | .failed => True
  remote : client.phase = .rtr ∨ client.phase = .rts →
    ∃ session, state.Serves session number client.remote
  targets : client.qp.Receives → ∃ session attrs,
    state.Serves session number attrs ∧ client.qp.Targets attrs
  psn : client.qp.state = .rts →
    client.qp.values.sqPsn = client.attrs.psn.toUInt32

theorem UcClient.Sound.mono {client : UcClient}
    (extends_ : before.Extends after) (sound : client.Sound before number) :
    client.Sound after number where
  known prepared := extends_.knows _ _ (sound.known prepared)
  inState := sound.inState
  remote place := by
    obtain ⟨session, serves⟩ := sound.remote place
    exact ⟨session, extends_.serves _ _ _ serves⟩
  targets receives := by
    obtain ⟨session, attrs, serves, targets⟩ := sound.targets receives
    exact ⟨session, attrs, extends_.serves _ _ _ serves, targets⟩
  psn := sound.psn

/-- What is known of a connection: its attributes are its own, its queue pair
is as far as its phase says, and what it has read and connected to is the
client that it has accepted. -/
structure UcSession.Sound (state : UcState) (number : Nat)
    (session : UcSession) : Prop where
  owned : number < state.count →
    state.owner session.attrs.address = some (.session number)
  made : number < state.count → session.qp.state ≠ .reset
  blank : state.count ≤ number → session.qp.state = .reset ∧
    session.peer = none
  inState : match session.phase with
    | .accept | .read | .write | .rtr =>
        session.qp.type = .uc ∧ session.qp.state = .init
    | .rts => session.qp.type = .uc ∧ session.qp.state = .rtr
    | .serving | .abandoned => True
  waits : session.phase = .accept → session.peer = none
  remote : session.phase = .write ∨ session.phase = .rtr ∨
      session.phase = .rts →
    ∃ client, session.peer = some client ∧ state.Knows client session.remote
  targets : session.qp.Receives → ∃ client attrs,
    session.peer = some client ∧ state.Knows client attrs ∧
      session.qp.Targets attrs
  psn : session.qp.state = .rts →
    session.qp.values.sqPsn = session.attrs.psn.toUInt32

theorem UcSession.Sound.mono {session : UcSession}
    (extends_ : before.Extends after)
    (created : number < after.count → number < before.count)
    (sound : session.Sound before number) : session.Sound after number where
  owned inside := extends_.owner _ _ (sound.owned (created inside))
  made inside := sound.made (created inside)
  blank outside := sound.blank (extends_.count.trans outside)
  inState := sound.inState
  waits := sound.waits
  remote place := by
    obtain ⟨client, peer, known⟩ := sound.remote place
    exact ⟨client, peer, extends_.knows _ _ known⟩
  targets receives := by
    obtain ⟨client, attrs, peer, known, targets⟩ := sound.targets receives
    exact ⟨client, attrs, peer, extends_.knows _ _ known, targets⟩
  psn := sound.psn

/-- Both sides are sound, and the sockets carry the attributes of those who
write to them. -/
structure UcSides (state : UcState) : Prop where
  client : ∀ number, (state.clients number).Sound state number
  session : ∀ number, (state.sessions number).Sound state number
  toServer : ∀ client, ∀ attrs ∈ state.toServer client,
    state.Knows client attrs
  toClient : ∀ client, ∀ attrs ∈ state.toClient client,
    ∃ session, state.Serves session client attrs

namespace UcSides

theorem initial : UcSides .initial where
  client number := by
    refine ⟨fun prepared => absurd rfl prepared, rfl, ?_, ?_, nofun⟩
    · rintro (place | place) <;> cases place
    · rintro (state | state) <;> cases state
  session number := by
    refine ⟨fun inside => absurd inside (Nat.not_lt_zero _),
      fun inside => absurd inside (Nat.not_lt_zero _), fun _ => ⟨rfl, rfl⟩,
      trivial, nofun, ?_, ?_, nofun⟩
    · rintro (place | place | place) <;> cases place
    · rintro (state | state) <;> cases state
  toServer _ _ member := by cases member
  toClient _ _ member := by cases member

theorem of_client {client : UcClient} (sides : UcSides before)
    (extends_ : before.Extends after)
    (clients : after.clients = Function.update before.clients number client)
    (sessions : after.sessions = before.sessions)
    (count : after.count = before.count) (own : client.Sound after number)
    (toServer : ∀ other, ∀ attrs ∈ after.toServer other,
      attrs ∈ before.toServer other ∨ after.Knows other attrs)
    (toClient : ∀ other, after.toClient other ⊆ before.toClient other) :
    UcSides after where
  client := by
    rw [clients]
    exact (Function.forall_update_iff before.clients
      fun other (client : UcClient) => client.Sound after other).mpr
        ⟨own, fun other _ => (sides.client other).mono extends_⟩
  session other := by
    rw [sessions]
    exact (sides.session other).mono extends_ fun inside => count ▸ inside
  toServer other attrs member :=
    (toServer other attrs member).elim
      (fun old => extends_.knows _ _ (sides.toServer other attrs old)) id
  toClient other attrs member := by
    obtain ⟨session, serves⟩ :=
      sides.toClient other attrs (toClient other member)
    exact ⟨session, extends_.serves _ _ _ serves⟩

theorem of_session {session : UcSession} (sides : UcSides before)
    (extends_ : before.Extends after)
    (clients : after.clients = before.clients)
    (sessions : after.sessions =
      Function.update before.sessions number session)
    (count : ∀ other, other ≠ number → other < after.count →
      other < before.count)
    (own : session.Sound after number)
    (toServer : ∀ other, after.toServer other ⊆ before.toServer other)
    (toClient : ∀ other, ∀ attrs ∈ after.toClient other,
      attrs ∈ before.toClient other ∨
        ∃ session, after.Serves session other attrs) : UcSides after where
  client other := by
    rw [clients]
    exact (sides.client other).mono extends_
  session := by
    rw [sessions]
    exact (Function.forall_update_iff before.sessions
      fun other (session : UcSession) => session.Sound after other).mpr
        ⟨own, fun other distinct =>
          (sides.session other).mono extends_ (count other distinct)⟩
  toServer other attrs member :=
    extends_.knows _ _ (sides.toServer other attrs (toServer other member))
  toClient other attrs member := by
    rcases toClient other attrs member with old | new
    · obtain ⟨session, serves⟩ := sides.toClient other attrs old
      exact ⟨session, extends_.serves _ _ _ serves⟩
    · exact new

theorem client_onward (sides : UcSides before) (extends_ : before.Extends after)
    {phase : UcClientPhase} {remote : QpAttr}
    (prepared : (before.clients number).phase ≠ .prepare)
    (inState : match phase with
      | .prepare => False
      | .connect | .write | .read | .rtr =>
          (before.clients number).qp.type = .uc ∧
            (before.clients number).qp.state = .init
      | .rts | .connected => False
      | .failed => True)
    (read : phase = .rtr →
      ∃ session, after.Serves session number remote) :
    UcClient.Sound after number
      { before.clients number with phase := phase, remote := remote } where
  known _ := extends_.knows _ _ ((sides.client number).known prepared)
  inState := by cases phase <;> first | exact inState | exact inState.elim
  remote place := by
    rcases place with place | place
    · exact read place
    · rw [show phase = .rts from place] at inState
      exact inState.elim
  targets := ((sides.client number).mono extends_).targets
  psn := (sides.client number).psn

theorem session_onward (sides : UcSides before)
    (extends_ : before.Extends after) {phase : UcSessionPhase}
    {remote : QpAttr} (created : number < before.count)
    (count : after.count = before.count)
    (inState : match phase with
      | .accept => False
      | .read | .write | .rtr =>
          (before.sessions number).qp.type = .uc ∧
            (before.sessions number).qp.state = .init
      | .rts => False
      | .serving | .abandoned => True)
    (read : phase = .write ∨ phase = .rtr →
      ∃ client, (before.sessions number).peer = some client ∧
        after.Knows client remote) :
    UcSession.Sound after number
      { before.sessions number with phase := phase, remote := remote } where
  owned _ := extends_.owner _ _ ((sides.session number).owned created)
  made _ := (sides.session number).made created
  blank outside := absurd (count ▸ created) (not_lt.mpr outside)
  inState := by cases phase <;> first | exact inState | exact inState.elim
  waits place := by
    rw [show phase = .accept from place] at inState
    exact inState.elim
  remote place := by
    rcases place with place | place | place
    · exact read (.inl place)
    · exact read (.inr place)
    · rw [show phase = .rts from place] at inState
      exact inState.elim
  targets := ((sides.session number).mono extends_
    fun inside => count ▸ inside).targets
  psn := (sides.session number).psn

theorem step (sides : UcSides before) (steps : UcSteps before after) :
    UcSides after := by
  have extends_ := steps.extends
  have sameServer : ∀ other, ∀ attrs ∈ before.toServer other,
      attrs ∈ before.toServer other ∨ after.Knows other attrs :=
    fun _ _ => .inl
  have sameClient : ∀ other, ∀ attrs ∈ before.toClient other,
      attrs ∈ before.toClient other ∨
        ∃ session, after.Serves session other attrs := fun _ _ => .inl
  have fewer {sent : Nat → List QpAttr} {other : Nat} {attrs : QpAttr}
      {rest : List QpAttr} (next : sent other = attrs :: rest) (any : Nat) :
      Function.update sent other rest any ⊆ sent any := by
    by_cases same : any = other
    · subst same
      rw [Function.update_self, next]
      exact List.subset_cons_self _ _
    · rw [Function.update_of_ne same]
      exact List.Subset.refl _
  cases steps with
  | @prepareClient number attrs fresh free =>
      refine sides.of_client extends_ rfl rfl rfl ?_ sameServer
        fun _ => List.Subset.refl _
      refine ⟨fun _ => ⟨?_, ?_, Function.update_self _ _ _⟩, ⟨rfl, rfl⟩,
        ?_, fun receives => ?_, nofun⟩
      · simp [UcState.setClient]
      · simp [UcState.setClient]
      · rintro (place | place) <;> cases place
      · exact absurd receives (QueuePair.not_receives_of_init rfl)
  | @connect number place =>
      have inState := (sides.client number).inState
      rw [place] at inState
      exact sides.of_client extends_ rfl rfl rfl
        (sides.client_onward extends_ (by rw [place]; decide) inState nofun)
        sameServer fun _ => List.Subset.refl _
  | @clientWrite number toServer place sent =>
      have inState := (sides.client number).inState
      rw [place] at inState
      have known := extends_.knows _ _ ((sides.client number).known
        (by rw [place]; decide))
      refine sides.of_client extends_ rfl rfl rfl
        (sides.client_onward extends_ (by rw [place]; decide) inState nofun)
        (fun other attrs member => ?_) fun _ => List.Subset.refl _
      rcases sent other attrs member with old | ⟨rfl, rfl⟩
      · exact .inl old
      · exact .inr known
  | @clientRead number attrs rest place sent =>
      have inState := (sides.client number).inState
      rw [place] at inState
      obtain ⟨session, serves⟩ :=
        sides.toClient number attrs (sent ▸ List.mem_cons_self)
      exact sides.of_client extends_ rfl rfl rfl
        (sides.client_onward extends_ (by rw [place]; decide) inState
          fun _ => ⟨session, extends_.serves _ _ _ serves⟩)
        sameServer (fewer sent)
  | @clientRtr number qp place moved =>
      have sound := (sides.client number).mono extends_
      have inState := sound.inState
      rw [place] at inState
      obtain ⟨type, state, targets⟩ :=
        QueuePair.connectRtr_spec inState.1 inState.2 moved
      obtain ⟨session, serves⟩ := sound.remote (.inl place)
      refine sides.of_client extends_ rfl rfl rfl
        ⟨fun _ => sound.known (by rw [place]; decide), ⟨type, state⟩,
          fun _ => ⟨session, serves⟩, fun _ => ⟨session, _, serves, targets⟩,
          fun rts => ?_⟩ sameServer fun _ => List.Subset.refl _
      cases state.symm.trans rts
  | @clientRts number qp phase place moved ends =>
      have sound := (sides.client number).mono extends_
      have inState := sound.inState
      rw [place] at inState
      obtain ⟨state, psn, targets⟩ :=
        QueuePair.connectRts_spec inState.1 inState.2 moved
      obtain ⟨session, attrs, serves, target⟩ := sound.targets (.inl inState.2)
      refine sides.of_client extends_ rfl rfl rfl
        ⟨fun _ => sound.known (by rw [place]; decide), ?_, ?_,
          fun _ => ⟨session, attrs, serves, targets attrs target⟩,
          fun _ => psn⟩ sameServer fun _ => List.Subset.refl _
      · rcases ends with rfl | rfl
        · exact state
        · trivial
      · rcases ends with rfl | rfl <;> rintro (place | place) <;> cases place
  | @clientFails number place =>
      refine sides.of_client extends_ rfl rfl rfl
        (sides.client_onward extends_ ?_ trivial nofun) sameServer
        fun _ => List.Subset.refl _
      rcases place with place | place <;> rw [place] <;> decide
  | @prepareSession attrs free =>
      refine sides.of_session extends_ rfl rfl
        (fun other distinct inside => ?_) ?_ (fun _ => List.Subset.refl _)
        sameClient
      · simp only at inside
        omega
      · refine ⟨fun _ => Function.update_self _ _ _,
          fun _ => QpState.noConfusion,
          fun outside => ?_, ⟨rfl, rfl⟩, fun _ => rfl, ?_,
          fun receives => ?_, nofun⟩
        · simp only at outside
          omega
        · rintro (place | place | place) <;> cases place
        · exact absurd receives (QueuePair.not_receives_of_init rfl)
  | @accept number client rest phase created place next ends =>
      have sound := sides.session number
      have inState := sound.inState
      rw [place] at inState
      refine sides.of_session extends_ rfl rfl (fun _ _ => id)
        ⟨fun _ => sound.owned created, fun _ => sound.made created,
          fun outside => absurd created (not_lt.mpr outside), ?_, ?_, ?_,
          fun receives => ?_, sound.psn⟩
        (fun _ => List.Subset.refl _) sameClient
      · rcases ends with rfl | rfl
        · exact inState
        · trivial
      · rcases ends with rfl | rfl <;> intro place <;> cases place
      · rcases ends with rfl | rfl <;> rintro (place | place | place) <;>
          cases place
      · exact absurd receives (QueuePair.not_receives_of_init inState.2)
  | @sessionRead number client attrs rest created place peer sent =>
      have inState := (sides.session number).inState
      rw [place] at inState
      have known := sides.toServer client attrs (sent ▸ List.mem_cons_self)
      exact sides.of_session extends_ rfl rfl (fun _ _ => id)
        (sides.session_onward extends_ created rfl inState
          fun _ => ⟨client, peer, extends_.knows _ _ known⟩)
        (fewer sent) sameClient
  | @sessionWrite number client toClient created place peer sent =>
      have sound := (sides.session number).mono extends_ id
      have inState := sound.inState
      rw [place] at inState
      refine sides.of_session extends_ rfl rfl (fun _ _ => id)
        (sides.session_onward extends_ created rfl inState
          fun _ => sound.remote (.inl place))
        (fun _ => List.Subset.refl _) fun other attrs member => ?_
      rcases sent other attrs member with old | ⟨rfl, rfl⟩
      · exact .inl old
      · refine .inr ⟨number, created, ?_, ?_, ?_, sound.owned created⟩ <;>
          simp [UcState.setSession, peer, UcSessionPhase.Replied]
  | @sessionRtr number qp created place moved =>
      have sound := (sides.session number).mono extends_ id
      have inState := sound.inState
      rw [place] at inState
      obtain ⟨type, state, targets⟩ :=
        QueuePair.connectRtr_spec inState.1 inState.2 moved
      obtain ⟨client, peer, known⟩ := sound.remote (.inr (.inl place))
      refine sides.of_session extends_ rfl rfl (fun _ _ => id)
        ⟨fun _ => sound.owned created, fun _ => by rw [state]; decide,
          fun outside => absurd created (not_lt.mpr outside),
          ⟨type, state⟩, nofun, fun _ => ⟨client, peer, known⟩,
          fun _ => ⟨client, _, peer, known, targets⟩, fun rts => ?_⟩
        (fun _ => List.Subset.refl _) sameClient
      cases state.symm.trans rts
  | @sessionRts number qp phase created place moved ends =>
      have sound := (sides.session number).mono extends_ id
      have inState := sound.inState
      rw [place] at inState
      obtain ⟨state, psn, targets⟩ :=
        QueuePair.connectRts_spec inState.1 inState.2 moved
      obtain ⟨client, attrs, peer, known, target⟩ :=
        sound.targets (.inl inState.2)
      refine sides.of_session extends_ rfl rfl (fun _ _ => id)
        ⟨fun _ => sound.owned created, fun _ => by rw [state]; decide,
          fun outside => absurd created (not_lt.mpr outside), ?_, ?_, ?_,
          fun _ => ⟨client, attrs, peer, known, targets attrs target⟩,
          fun _ => psn⟩
        (fun _ => List.Subset.refl _) sameClient
      · rcases ends with rfl | rfl <;> trivial
      · rcases ends with rfl | rfl <;> intro place <;> cases place
      · rcases ends with rfl | rfl <;> rintro (place | place | place) <;>
          cases place
  | @sessionFails number phase created place ends =>
      refine sides.of_session extends_ rfl rfl (fun _ _ => id)
        (sides.session_onward extends_ created rfl ?_ ?_)
        (fun _ => List.Subset.refl _) sameClient
      · rcases ends with rfl | rfl <;> trivial
      · rcases ends with rfl | rfl <;> rintro (place | place) <;> cases place
  | sendRequest | loseRequest | loseResponse | drop =>
      exact ⟨fun other => (sides.client other).mono extends_,
        fun other => (sides.session other).mono extends_ id,
        fun other attrs member =>
          extends_.knows _ _ (sides.toServer other attrs member),
        fun other attrs member => by
          obtain ⟨session, serves⟩ := sides.toClient other attrs member
          exact ⟨session, extends_.serves _ _ _ serves⟩⟩
  | @receiveRequest client number address requests arrives rest owned =>
      have sound := (sides.session number).mono extends_ id
      exact sides.of_session extends_ rfl rfl (fun _ _ => id)
        ⟨sound.1, sound.2, sound.3, sound.4, sound.5, sound.6, sound.7,
          sound.8⟩ (fun _ => List.Subset.refl _) sameClient
  | @sendResponse number place ready more =>
      have sound := (sides.session number).mono extends_ id
      exact sides.of_session extends_ rfl rfl (fun _ _ => id)
        ⟨sound.1, sound.2, sound.3, sound.4, sound.5, sound.6, sound.7,
          sound.8⟩ (fun _ => List.Subset.refl _) sameClient
  | @receiveResponse session number address responses arrives rest owned =>
      have sound := (sides.client number).mono extends_
      exact sides.of_client extends_ rfl rfl rfl
        ⟨sound.1, sound.2, sound.3, sound.4, sound.5⟩ sameServer
        fun _ => List.Subset.refl _

end UcSides

/-- Each client is in the backlog at most once and is accepted at most once,
and only after it has connected. -/
structure UcPeers (state : UcState) : Prop where
  nodup : state.backlog.Nodup
  waits : ∀ client ∈ state.backlog, ∀ number,
    (state.sessions number).peer ≠ some client
  alone : ∀ first second client,
    (state.sessions first).peer = some client →
      (state.sessions second).peer = some client → first = second
  connects : ∀ client, (state.clients client).phase = .prepare ∨
      (state.clients client).phase = .connect →
    client ∉ state.backlog ∧ ∀ number,
      (state.sessions number).peer ≠ some client

namespace UcPeers

theorem initial : UcPeers .initial where
  nodup := List.nodup_nil
  waits _ member := by cases member
  alone _ _ _ peer := by cases peer
  connects _ _ := ⟨List.not_mem_nil, fun _ => nofun⟩

theorem of_same (peers : UcPeers before)
    (backlog : after.backlog = before.backlog)
    (peer : ∀ number, (after.sessions number).peer =
      (before.sessions number).peer)
    (phase : ∀ client, (after.clients client).phase = .prepare ∨
        (after.clients client).phase = .connect →
      (before.clients client).phase = .prepare ∨
        (before.clients client).phase = .connect) : UcPeers after where
  nodup := backlog ▸ peers.nodup
  waits client member number :=
    peer number ▸ peers.waits client (backlog ▸ member) number
  alone first second client := by
    rw [peer, peer]
    exact peers.alone first second client
  connects client place :=
    ⟨backlog ▸ (peers.connects client (phase client place)).1,
      fun number => peer number ▸
        (peers.connects client (phase client place)).2 number⟩

theorem phase_update {client : UcClient}
    (moved : client.phase ≠ .prepare ∧ client.phase ≠ .connect ∨
      (before.clients number).phase = .prepare) (other : Nat)
    (place : (Function.update before.clients number client other).phase =
        .prepare ∨
      (Function.update before.clients number client other).phase = .connect) :
    (before.clients other).phase = .prepare ∨
      (before.clients other).phase = .connect := by
  by_cases same : other = number
  · subst same
    rw [Function.update_self] at place
    rcases moved with ⟨prepared, connected⟩ | fresh
    · exact (place.elim prepared connected).elim
    · exact .inl fresh
  · rwa [Function.update_of_ne same] at place

theorem peer_update {session : UcSession}
    (kept : session.peer = (before.sessions number).peer) (other : Nat) :
    (Function.update before.sessions number session other).peer =
      (before.sessions other).peer := by
  by_cases same : other = number
  · subst same
    rw [Function.update_self, kept]
  · rw [Function.update_of_ne same]

theorem step (sides : UcSides before) (peers : UcPeers before)
    (steps : UcSteps before after) : UcPeers after := by
  cases steps with
  | prepareClient fresh =>
      exact peers.of_same rfl (fun _ => rfl) (phase_update (.inr fresh))
  | @connect number place =>
      obtain ⟨outside, unserved⟩ := peers.connects number (.inr place)
      refine ⟨?_, ?_, peers.alone, fun other early => ?_⟩
      · exact List.nodup_append.mpr ⟨peers.nodup, List.nodup_singleton _,
          fun client member other here => by
            rintro rfl
            exact outside (List.mem_singleton.mp here ▸ member)⟩
      · intro client member
        rcases List.mem_append.mp member with old | here
        · exact peers.waits client old
        · exact List.mem_singleton.mp here ▸ unserved
      · have distinct : other ≠ number := by
          rintro rfl
          rcases early with early | early <;>
            simp [UcState.setClient] at early
        have place := phase_update
          (.inl ⟨UcClientPhase.noConfusion, UcClientPhase.noConfusion⟩)
          other early
        obtain ⟨absent, alone⟩ := peers.connects other place
        exact ⟨fun member => (List.mem_append.mp member).elim absent
          fun here => distinct (List.mem_singleton.mp here), alone⟩
  | clientWrite | clientRead | clientRtr | clientFails =>
      exact peers.of_same rfl (fun _ => rfl) (phase_update
        (.inl ⟨UcClientPhase.noConfusion, UcClientPhase.noConfusion⟩))
  | clientRts place moved ends =>
      refine peers.of_same rfl (fun _ => rfl) (phase_update (.inl ?_))
      rcases ends with rfl | rfl <;>
        exact ⟨UcClientPhase.noConfusion, UcClientPhase.noConfusion⟩
  | prepareSession =>
      exact peers.of_same rfl
        (peer_update ((sides.session _).blank le_rfl).2.symm) fun _ => id
  | @accept number client rest phase created place next ends =>
      have nodup := peers.nodup
      rw [next, List.nodup_cons] at nodup
      have unserved := peers.waits client (next ▸ List.mem_cons_self)
      have peer : ∀ other served, (Function.update before.sessions number
            { before.sessions number with
              phase := phase
              peer := some client } other).peer = some served →
          (other = number ∧ served = client) ∨
            (before.sessions other).peer = some served := by
        intro other served
        by_cases same : other = number
        · subst same
          rw [Function.update_self]
          exact fun here => .inl ⟨rfl, (Option.some.inj here).symm⟩
        · rw [Function.update_of_ne same]
          exact .inr
      refine ⟨nodup.2, ?_, ?_, ?_⟩
      · intro waiting member other here
        rcases peer other waiting here with ⟨rfl, rfl⟩ | old
        · exact nodup.1 member
        · exact peers.waits waiting (next ▸ List.mem_cons_of_mem _ member)
            other old
      · intro first second served theirs others
        rcases peer first served theirs with ⟨rfl, rfl⟩ | old <;>
          rcases peer second _ others with ⟨rfl, same⟩ | older
        · rfl
        · exact absurd older (unserved second)
        · exact absurd (same ▸ old) (unserved first)
        · exact peers.alone first second served old older
      · intro other early
        obtain ⟨absent, alone⟩ := peers.connects other early
        rw [next] at absent
        refine ⟨fun member => absent (List.mem_cons_of_mem _ member),
          fun any here => ?_⟩
        rcases peer any other here with ⟨rfl, rfl⟩ | old
        · exact absent List.mem_cons_self
        · exact alone any old
  | sessionRead | sessionWrite | sessionRtr | sessionRts | sessionFails
  | receiveRequest | sendResponse =>
      exact peers.of_same rfl (peer_update rfl) fun _ => id
  | sendRequest | loseRequest | loseResponse | drop =>
      exact peers.of_same rfl (fun _ => rfl) fun _ => id
  | @receiveResponse session number =>
      refine peers.of_same rfl (fun _ => rfl) fun other place => ?_
      by_cases same : other = number
      · subst same
        simpa [UcState.setClient] using place
      · simpa [UcState.setClient, Function.update_of_ne same] using place

end UcPeers

/-- Requests come from connected clients and go to the connections that have
accepted them, responses go back, and what has been lost is accounted for. -/
structure UcMessages (state : UcState) : Prop where
  received : ∀ number, ∀ client ∈ (state.sessions number).requests,
    (state.sessions number).peer = some client ∧
      (state.clients client).phase = .connected
  answers : ∀ number, ∀ session ∈ (state.clients number).answers,
    ∃ attrs, state.Serves session number attrs
  asked : ∀ client address, (client, address) ∈ state.requests →
    (state.clients client).phase = .connected ∧ ∃ session attrs,
      state.Serves session client attrs ∧ address = attrs.address
  answered : ∀ session address, (session, address) ∈ state.responses →
    ∃ client own attrs, state.Serves session client own ∧
      state.Knows client attrs ∧ (state.clients client).phase = .connected ∧
      address = attrs.address
  lostRequests : ∀ entry ∈ state.lostRequests, ∃ session,
    entry = some session ∧ session.qp.state = .init ∧ session.phase.Replied
  lostResponses : state.lostResponses = []

namespace UcMessages

theorem initial : UcMessages .initial where
  received _ _ member := by cases member
  answers _ _ member := by cases member
  asked _ _ member := by cases member
  answered _ _ member := by cases member
  lostRequests _ member := by cases member
  lostResponses := rfl

/-- What was known of the messages stays true of those that remain, so only
new ones need a reason. -/
theorem of_new (messages : UcMessages before)
    (extends_ : before.Extends after)
    (received : ∀ number, ∀ client ∈ (after.sessions number).requests,
      client ∈ (before.sessions number).requests ∧
          ((before.sessions number).peer = some client →
            (after.sessions number).peer = some client) ∨
        (after.sessions number).peer = some client ∧
          (after.clients client).phase = .connected)
    (answers : ∀ number, ∀ session ∈ (after.clients number).answers,
      session ∈ (before.clients number).answers ∨
        ∃ attrs, after.Serves session number attrs)
    (asked : ∀ client address, (client, address) ∈ after.requests →
      (client, address) ∈ before.requests ∨
        (after.clients client).phase = .connected ∧ ∃ session attrs,
          after.Serves session client attrs ∧ address = attrs.address)
    (answered : ∀ session address, (session, address) ∈ after.responses →
      (session, address) ∈ before.responses ∨
        ∃ client own attrs, after.Serves session client own ∧
          after.Knows client attrs ∧
          (after.clients client).phase = .connected ∧
          address = attrs.address)
    (lost : ∀ entry ∈ after.lostRequests, entry ∈ before.lostRequests ∨
      ∃ session, entry = some session ∧ session.qp.state = .init ∧
        session.phase.Replied)
    (none : after.lostResponses = before.lostResponses) :
    UcMessages after where
  received number client member := by
    rcases received number client member with ⟨old, kept⟩ | new
    · obtain ⟨peer, connected⟩ := messages.received number client old
      exact ⟨kept peer, extends_.connected _ connected⟩
    · exact new
  answers number session member := by
    rcases answers number session member with old | new
    · obtain ⟨attrs, serves⟩ := messages.answers number session old
      exact ⟨attrs, extends_.serves _ _ _ serves⟩
    · exact new
  asked client address member := by
    rcases asked client address member with old | new
    · obtain ⟨connected, session, attrs, serves, same⟩ :=
        messages.asked client address old
      exact ⟨extends_.connected _ connected, session, attrs,
        extends_.serves _ _ _ serves, same⟩
    · exact new
  answered session address member := by
    rcases answered session address member with old | new
    · obtain ⟨client, own, attrs, serves, known, connected, same⟩ :=
        messages.answered session address old
      exact ⟨client, own, attrs, extends_.serves _ _ _ serves,
        extends_.knows _ _ known, extends_.connected _ connected, same⟩
    · exact new
  lostRequests entry member :=
    (lost entry member).elim (messages.lostRequests entry) id
  lostResponses := none.trans messages.lostResponses

theorem requests_update {session : UcSession}
    (sessions : after.sessions =
      Function.update before.sessions number session)
    (fewer : session.requests ⊆ (before.sessions number).requests)
    (kept : ∀ client, (before.sessions number).peer = some client →
      session.peer = some client) (other : Nat) (client : Nat)
    (member : client ∈ (after.sessions other).requests) :
    client ∈ (before.sessions other).requests ∧
      ((before.sessions other).peer = some client →
        (after.sessions other).peer = some client) := by
  rw [sessions] at member ⊢
  by_cases same : other = number
  · subst same
    rw [Function.update_self] at member ⊢
    exact ⟨fewer member, kept client⟩
  · rw [Function.update_of_ne same] at member ⊢
    exact ⟨member, id⟩

theorem answers_update {client : UcClient}
    (answers : client.answers = (before.clients number).answers)
    (other : Nat) (session : Nat)
    (member : session ∈
      (Function.update before.clients number client other).answers) :
    session ∈ (before.clients other).answers := by
  by_cases same : other = number
  · subst same
    rwa [Function.update_self, answers] at member
  · rwa [Function.update_of_ne same] at member

theorem client_step {client : UcClient} (messages : UcMessages before)
    (extends_ : before.Extends after)
    (clients : after.clients = Function.update before.clients number client)
    (sessions : after.sessions = before.sessions)
    (requests : after.requests = before.requests)
    (responses : after.responses = before.responses)
    (lostRequests : after.lostRequests = before.lostRequests)
    (lostResponses : after.lostResponses = before.lostResponses)
    (answers : client.answers = (before.clients number).answers) :
    UcMessages after := by
  refine messages.of_new extends_ (fun _ _ member => ?_)
    (fun other session member => ?_) (fun _ _ member => ?_)
    (fun _ _ member => ?_) (fun _ member => ?_) lostResponses
  · rw [sessions] at member ⊢
    exact .inl ⟨member, id⟩
  · rw [clients] at member
    exact .inl (answers_update answers other session member)
  · exact .inl (requests ▸ member)
  · exact .inl (responses ▸ member)
  · exact .inl (lostRequests ▸ member)

theorem session_step {session : UcSession} (messages : UcMessages before)
    (extends_ : before.Extends after)
    (clients : after.clients = before.clients)
    (sessions : after.sessions =
      Function.update before.sessions number session)
    (requests : after.requests = before.requests)
    (responses : after.responses = before.responses)
    (lostRequests : after.lostRequests = before.lostRequests)
    (lostResponses : after.lostResponses = before.lostResponses)
    (fewer : session.requests ⊆ (before.sessions number).requests)
    (kept : ∀ client, (before.sessions number).peer = some client →
      session.peer = some client) : UcMessages after := by
  refine messages.of_new extends_ (fun other client member => ?_)
    (fun _ _ member => ?_) (fun _ _ member => ?_)
    (fun _ _ member => ?_) (fun _ member => ?_) lostResponses
  · exact .inl (requests_update sessions fewer kept other client member)
  · rw [clients] at member
    exact .inl member
  · exact .inl (requests ▸ member)
  · exact .inl (responses ▸ member)
  · exact .inl (lostRequests ▸ member)

theorem step (sides : UcSides before) (messages : UcMessages before)
    (steps : UcSteps before after) : UcMessages after := by
  have extends_ := steps.extends
  cases steps with
  | prepareClient | connect | clientWrite | clientRead | clientRtr | clientRts
  | clientFails =>
      exact messages.client_step extends_ rfl rfl rfl rfl rfl rfl rfl
  | prepareSession =>
      refine messages.session_step extends_ rfl rfl rfl rfl rfl rfl
        (List.nil_subset _) fun client peer => ?_
      rw [((sides.session _).blank le_rfl).2] at peer
      cases peer
  | @accept number client rest phase created place =>
      refine messages.session_step extends_ rfl rfl rfl rfl rfl rfl
        (List.Subset.refl _) fun client peer => ?_
      rw [(sides.session number).waits place] at peer
      cases peer
  | sessionRead | sessionWrite | sessionRtr | sessionRts | sessionFails =>
      exact messages.session_step extends_ rfl rfl rfl rfl rfl rfl
        (List.Subset.refl _) fun _ => id
  | @sendRequest number place =>
      obtain ⟨session, attrs, serves, targets⟩ :=
        (sides.client number).targets (.inr (by
          have inState := (sides.client number).inState
          rwa [place] at inState))
      refine messages.of_new extends_ (fun _ _ member => .inl ⟨member, id⟩)
        (fun _ _ => .inl) (fun client address member => ?_) (fun _ _ => .inl)
        (fun _ => .inl) rfl
      rcases List.mem_append.mp member with old | new
      · exact .inl old
      · cases List.mem_singleton.mp new
        exact .inr ⟨place, session, attrs, extends_.serves _ _ _ serves,
          targets.target_eq⟩
  | @receiveRequest client number address requests arrives rest owned =>
      obtain ⟨connected, session, attrs, serves, rfl⟩ :=
        messages.asked client address arrives
      obtain rfl : session = number := by
        cases serves.owner.symm.trans owned
        rfl
      refine messages.of_new extends_ (fun other client' member => ?_)
        (fun _ _ => .inl) (fun _ _ member => .inl (rest member))
        (fun _ _ => .inl) (fun _ => .inl) rfl
      by_cases same : other = session
      · subst same
        simp only [UcState.setSession, Function.update_self] at member ⊢
        rcases List.mem_append.mp member with old | new
        · exact .inl ⟨old, id⟩
        · cases List.mem_singleton.mp new
          exact .inr ⟨serves.peer, connected⟩
      · simp only [UcState.setSession, Function.update_of_ne same]
          at member ⊢
        exact .inl ⟨member, id⟩
  | @loseRequest client address requests entry arrives rest lost =>
      obtain ⟨-, session, attrs, serves, rfl⟩ :=
        messages.asked client address arrives
      obtain ⟨rfl, idle⟩ := lost session serves.owner
      have made := (sides.session session).made serves.created
      refine messages.of_new extends_ (fun _ _ member => .inl ⟨member, id⟩)
        (fun _ _ => .inl) (fun _ _ member => .inl (rest member))
        (fun _ _ => .inl) (fun other member => ?_) rfl
      rcases List.mem_cons.mp member with rfl | old
      · refine .inr ⟨_, rfl, ?_, serves.replied⟩
        unfold QueuePair.Receives at idle
        cases state : (before.sessions session).qp.state <;> simp_all
      · exact .inl old
  | @sendResponse number place ready more =>
      obtain ⟨client, attrs, peer, known, targets⟩ :=
        (sides.session number).targets (.inr ready)
      -- a request has come from the client, which is connected therefore
      obtain ⟨asking, asked⟩ := List.exists_mem_of_length_pos
        (Nat.zero_lt_of_lt more)
      obtain ⟨peer', connected⟩ := messages.received number asking asked
      obtain rfl := Option.some.inj (peer.symm.trans peer')
      have created : number < before.count := by
        by_contra outside
        have blank := (sides.session number).blank (not_lt.mp outside)
        rw [ready] at blank
        cases blank.1
      have serves : before.Serves number client
          (before.sessions number).attrs :=
        ⟨created, peer, rfl, by rw [place]; trivial,
          (sides.session number).owned created⟩
      refine messages.of_new extends_
        (fun other client member => .inl ?_)
        (fun _ _ => .inl) (fun _ _ => .inl) (fun session address member => ?_)
        (fun _ => .inl) rfl
      · refine requests_update rfl ?_ ?_ other client member
        · exact List.Subset.refl _
        · exact fun _ => id
      · rcases List.mem_append.mp member with old | new
        · exact .inl old
        · cases List.mem_singleton.mp new
          exact .inr ⟨client, _, attrs, extends_.serves _ _ _ serves,
            extends_.knows _ _ known, connected, targets.target_eq⟩
  | @receiveResponse session number address responses arrives rest owned =>
      obtain ⟨client, own, attrs, serves, known, connected, rfl⟩ :=
        messages.answered session address arrives
      obtain rfl : client = number := by
        cases known.owner.symm.trans owned
        rfl
      refine messages.of_new extends_ (fun _ _ member => .inl ⟨member, id⟩)
        (fun other session' member => ?_) (fun _ _ => .inl)
        (fun _ _ member => .inl (rest member)) (fun _ => .inl) rfl
      by_cases same : other = client
      · subst same
        simp only [UcState.setClient, Function.update_self] at member
        rcases List.mem_append.mp member with old | new
        · exact .inl old
        · cases List.mem_singleton.mp new
          exact .inr ⟨own, extends_.serves _ _ _ serves⟩
      · simp only [UcState.setClient, Function.update_of_ne same] at member
        exact .inl member
  | @loseResponse session address responses entry arrives lost =>
      obtain ⟨client, own, attrs, serves, known, connected, rfl⟩ :=
        messages.answered session address arrives
      have inState := (sides.client client).inState
      rw [connected] at inState
      exact absurd (.inr inState) (lost client known.owner)
  | drop fewer rest =>
      exact messages.of_new extends_ (fun _ _ member => .inl ⟨member, id⟩)
        (fun _ _ => .inl) (fun _ _ member => .inl (fewer member))
        (fun _ _ member => .inl (rest member)) (fun _ => .inl) rfl

end UcMessages

/-- However any number of clients and the server take their steps, as long as
both get all of the attributes that they read, and whatever is dropped on the
way, clients and connections belong together one by one, connected queue pairs
agree with each other, and the only messages that find a queue pair not ready
are requests that overtake the server's `connect_qp`. -/
theorem ucPaired_of_wholeReads
    (reached : ucConnections.GuardedReach WholeReads state) :
    UcPaired state := by
  have known : UcSides state ∧ UcPeers state ∧ UcMessages state := by
    induction reached with
    | start initial =>
        cases initial
        exact ⟨UcSides.initial, UcPeers.initial, UcMessages.initial⟩
    | next _ whole stepTo ih =>
        obtain ⟨sides, peers, messages⟩ := ih
        have steps := ucConnections_steps whole stepTo
        exact ⟨sides.step steps, peers.step sides steps,
          messages.step sides steps⟩
  obtain ⟨sides, peers, messages⟩ := known
  refine
    { alone := peers.alone
      server := fun number receives => ?_
      client := fun number receives => ?_
      serverPsn := fun number => (sides.session number).psn
      clientPsn := fun number => (sides.client number).psn
      requests := fun number client member =>
        (messages.received number client member).1
      answers := fun number session member => ?_
      lostRequests := messages.lostRequests
      lostResponses := messages.lostResponses }
  · obtain ⟨client, attrs, peer, known, targets⟩ :=
      (sides.session number).targets receives
    exact ⟨client, peer, known.has ▸ targets⟩
  · obtain ⟨session, attrs, serves, targets⟩ :=
      (sides.client number).targets receives
    exact ⟨session, serves.peer, serves.has ▸ targets⟩
  · obtain ⟨attrs, serves⟩ := messages.answers number session member
    exact serves.peer

/-- Two clients connect in the order in which they did not prepare themselves;
the first request of the one overtakes the server and is lost, the second is
answered, and that of the other is dropped. -/
def crossingClients : List UcLabel :=
  let attrs (lid : Int32) (qpn : UInt32) (psn : Int32) : QpAttr :=
    { QpAttr.zero with lid := lid, qpn := qpn, psn := psn }
  let server : UcLabel := .server .success
  let client (number : Nat) : UcLabel := .client number .success
  [.prepareClient 0 (attrs 1 10 5), .prepareClient 1 (attrs 2 11 6),
    client 1, client 0, .prepareSession (attrs 9 1 7), server, client 1,
    client 0, server, server, client 1, client 1, client 1, .sendRequest 1,
    .arriveRequest 0, server, .sendRequest 1, .arriveRequest 0, server,
    .sendResponse 0, .arriveResponse 0, .prepareSession (attrs 9 2 8), server,
    server, server, server, server, client 0, client 0, client 0,
    .sendRequest 0, .dropRequest 0]

theorem ucPaired_crossing : ∃ state,
    ucConnections.run .initial crossingClients = some state ∧
      (state.sessions 0).peer = some 1 ∧ (state.sessions 1).peer = some 0 ∧
      (state.sessions 0).requests = [1] ∧ (state.clients 1).answers = [0] ∧
      state.lostRequests.length = 1 ∧ UcPaired state := by
  have runs : (ucConnections.run .initial crossingClients).any (fun state =>
      (state.sessions 0).peer = some 1 ∧ (state.sessions 1).peer = some 0 ∧
        (state.sessions 0).requests = [1] ∧ (state.clients 1).answers = [0] ∧
        state.lostRequests.length = 1) = true := by decide +kernel
  have whole :
      ucConnections.RunGuarded WholeReads .initial crossingClients := by
    decide +kernel
  obtain ⟨state, runTo, facts⟩ := (Option.any_eq_true _ _).mp runs
  obtain ⟨first, second, asked, answered, lost⟩ := of_decide_eq_true facts
  exact ⟨state, runTo, first, second, asked, answered, lost,
    ucPaired_of_wholeReads
      (TransitionSystem.guardedReach_of_run (.start rfl) whole runTo)⟩

end RdmaKVStore
