import EosBase.Uds.StreamState

/-!
# The names of stream sockets

A socket that was bound keeps its path and its token until it is closed.  An
accepted socket has the path of its listener without being registered under it;
closing one unregisters the listener, and this is the only way to lose a name.
-/

namespace EosBase.Uds.Stream

open Redox UdsStreamScheme Socket Option Table

structure Socket.SameNames (before after : Socket) : Prop where
  path : after.path = before.path
  issuedToken : after.issuedToken = before.issuedToken
  unbound : after.state = .unbound → before.state = .unbound
  bound : after.state = .bound → before.state = .bound

structure Socket.Fresh (socket : Socket) : Prop where
  issuedToken : socket.issuedToken = none
  unbound : socket.state = .unbound → socket.path = none
  bound : socket.state ≠ .bound

namespace Socket

variable {first second third : Socket}

theorem SameNames.refl (socket : Socket) : socket.SameNames socket :=
  ⟨rfl, rfl, fun same => same, fun same => same⟩

theorem SameNames.trans (one : first.SameNames second) (two : second.SameNames third) :
    first.SameNames third where
  path := two.path.trans one.path
  issuedToken := two.issuedToken.trans one.issuedToken
  unbound state := one.unbound (two.unbound state)
  bound state := one.bound (two.bound state)

theorem Fresh.sameNames (fresh : first.Fresh) (same : first.SameNames second) : second.Fresh where
  issuedToken := same.issuedToken.trans fresh.issuedToken
  unbound state := same.path.trans (fresh.unbound (same.unbound state))
  bound state := fresh.bound (same.bound state)

theorem SameNames.state (same : second.path = first.path)
    (token : second.issuedToken = first.issuedToken) (unbound : second.state ≠ .unbound)
    (bound : second.state ≠ .bound) : first.SameNames second :=
  ⟨same, token, fun state => absurd state unbound, fun state => absurd state bound⟩

end Socket

/-- The open sockets keep their names, but for one that is gone; what is new was
never bound. -/
structure Carried (before after : UdsStreamScheme) (gone : Option Nat) : Prop where
  forth : ∀ {id socket}, gone ≠ some id → before.getSocket id = some socket →
    ∃ changed, after.getSocket id = some changed ∧ socket.SameNames changed
  back : ∀ {id changed}, after.getSocket id = some changed →
    (∃ socket, gone ≠ some id ∧ before.getSocket id = some socket ∧ socket.SameNames changed) ∨
      changed.Fresh

variable {gone : Option Nat}

namespace Carried

variable {this before between after : UdsStreamScheme} {id : Nat}
  {socket changed : Socket}

theorem refl : Carried this this none where
  forth _ found := ⟨_, found, .refl _⟩
  back found := .inl ⟨_, by simp, found, .refl _⟩

theorem trans (one : Carried before between gone) (two : Carried between after none) :
    Carried before after gone where
  forth stays found := by
    obtain ⟨middle, present, same⟩ := one.forth stays found
    obtain ⟨last, final, again⟩ := two.forth (by simp) present
    exact ⟨last, final, same.trans again⟩
  back found := by
    rcases two.back found with ⟨middle, _, present, same⟩ | fresh
    · rcases one.back present with ⟨first, stays, initial, again⟩ | fresh
      · exact .inl ⟨first, stays, initial, again.trans same⟩
      · exact .inr (fresh.sameNames same)
    · exact .inr fresh

theorem set (found : this.sockets.get? id = some socket) (same : socket.SameNames changed) :
    Carried this (this.setSocket id changed) none := by
  have atSocket : ∀ {actual}, this.getSocket id = some actual → actual = socket := by
    intro actual opened
    cases found.symm.trans (get?_of_getSocket opened)
    rfl
  constructor
  · intro other actual _ opened
    by_cases here : other = id
    · subst here
      cases atSocket opened
      exact ⟨changed, getSocket_setSocket_self opened, same⟩
    · exact ⟨actual, (getSocket_setSocket_ne here).trans opened, .refl _⟩
  · intro other actual opened
    refine .inl ?_
    by_cases here : other = id
    · subst here
      have held := handle_of_getSocket opened
      rw [handles_setSocket] at held
      have present := getSocket_of_held held found
      cases (getSocket_setSocket_self present).symm.trans opened
      exact ⟨socket, by simp, present, same⟩
    · rw [getSocket_setSocket_ne here] at opened
      exact ⟨actual, by simp, opened, .refl _⟩

theorem setClosed (closed : this.handles.get? id = none) :
    Carried this (this.setSocket id changed) none where
  forth _ found := ⟨_, (getSocket_setSocket_closed closed).trans found, .refl _⟩
  back found := .inl ⟨_, by simp, (getSocket_setSocket_closed closed).symm.trans found, .refl _⟩

theorem add (unused : this.getSocket this.nextId = none) (fresh : changed.Fresh) :
    Carried this (this.addSocket changed) none where
  forth {other actual} _ found := by
    have different : other ≠ this.nextId := by
      rintro rfl
      cases unused.symm.trans found
    refine ⟨actual, ?_, .refl _⟩
    rw [getSocket_addSocket, if_neg different]
    exact found
  back {other actual} found := by
    rw [getSocket_addSocket] at found
    split at found
    · cases found
      exact .inr fresh
    · exact .inl ⟨actual, by simp, found, .refl _⟩

theorem schemeRoot (wellFormed : WellFormed this) : Carried this this.schemeRoot none where
  forth _ found := ⟨_, wellFormed.getSocket_schemeRoot.trans found, .refl _⟩
  back found := .inl ⟨_, by simp, wellFormed.getSocket_schemeRoot.symm.trans found, .refl _⟩

theorem without : Carried this (this.without id) (some id) where
  forth {other actual} stays found := by
    have different : other ≠ id := fun same => stays (same ▸ rfl)
    refine ⟨actual, ?_, .refl _⟩
    rw [getSocket_without, if_neg different]
    exact found
  back {other actual} found := by
    rw [getSocket_without] at found
    split at found
    · cases found
    next different =>
    exact .inl ⟨actual, fun same => different (some.inj same).symm, found, .refl _⟩

theorem registries (carried : Carried before after gone) (paths : Table Name Nat)
    (tokens : Table Nat Nat) :
    Carried before { after with socketPaths := paths, socketTokens := tokens } gone :=
  ⟨carried.forth, carried.back⟩

end Carried

theorem Accept.carried {listener this next id client}
    (accepted : Accept id listener client this next) (wellFormed : WellFormed this) :
    Carried this next none := by
  cases accepted with
  | gone => exact .refl
  | busy found => exact .set (get?_of_getSocket found) (.refl _)
  | elsewhere found => exact .set (get?_of_getSocket found) (.state rfl rfl (by simp) (by simp))
  | @joined actual connection found =>
    have same : actual.SameNames (actual.acceptedBy connection this.nextId) :=
      .state rfl rfl (by simp [acceptedBy]) (by simp [acceptedBy])
    apply (Carried.set (get?_of_getSocket found) same).trans
    apply Carried.add
    · have different := (wellFormed.lt_nextId found).ne'
      exact (getSocket_setSocket_ne different).trans (wellFormed.unused le_rfl)
    · exact ⟨rfl, by simp [acceptedSocket, newSocket, new],
        by simp [acceptedSocket, newSocket, new]⟩

def SameRegistries (before after : UdsStreamScheme) : Prop :=
  after.socketPaths = before.socketPaths ∧ after.socketTokens = before.socketTokens

theorem Accept.registries {listener this next id client}
    (accepted : Accept id listener client this next) : SameRegistries this next := by
  cases accepted <;> exact ⟨rfl, rfl⟩

variable {before after : UdsStreamScheme}

theorem Accepting.carried {listener queue id} (accepting : Accepting id listener queue before after)
    (present : Accepting.Present id listener before) (wellFormed : WellFormed before) :
    Carried before after none ∧ SameRegistries before after := by
  have all : WellFormed after ∧ Carried before after none ∧ SameRegistries before after := by
    apply accepting.invariant present
    · exact ⟨wellFormed, .refl, rfl, rfl⟩
    · rintro this rest ⟨_, waiting, found⟩ ⟨wellFormed, carried, same⟩
      have kept := get?_of_getSocket found
      have names : { listener with awaiting := waiting }.SameNames
          { listener with awaiting := rest } :=
        ⟨rfl, rfl, fun state => state, fun state => state⟩
      exact ⟨wellFormed.setSamePeer kept ⟨rfl, rfl⟩, carried.trans (.set kept names), same⟩
    · rintro this client next _ _ ⟨wellFormed, carried, paths, tokens⟩ accepted
      obtain ⟨samePaths, sameTokens⟩ := accepted.registries
      exact ⟨accepted.change.wellFormed wellFormed, carried.trans (accepted.carried wellFormed),
        samePaths.trans paths, sameTokens.trans tokens⟩
  exact all.2

theorem closeWaiting_carried {queue} (this : UdsStreamScheme) :
    Carried this (closeWaiting queue this) none ∧
      SameRegistries this (closeWaiting queue this) := by
  induction queue generalizing this with
  | nil => exact ⟨.refl, rfl, rfl⟩
  | cons client rest ih =>
    unfold closeWaiting
    split
    next socket found =>
      have closed : socket.SameNames { socket with state := .closed } :=
        .state rfl rfl (by simp) (by simp)
      obtain ⟨carried, same⟩ :=
        ih (this.setSocket client { socket with state := .closed })
      exact ⟨(Carried.set (get?_of_getSocket found) closed).trans carried, same⟩
    · exact ih this

structure Named (this : UdsStreamScheme) : Prop where
  unbound : ∀ {id socket}, this.getSocket id = some socket → socket.state = .unbound →
    socket.path = none
  bound : ∀ {id socket}, this.getSocket id = some socket → socket.state ≠ .bound
  paths : ∀ {id socket token path}, this.getSocket id = some socket →
    socket.issuedToken = some token → socket.path = some path →
    this.socketPaths.get? path = some id
  tokens : ∀ {id socket token}, this.getSocket id = some socket →
    socket.issuedToken = some token → this.socketTokens.get? token = some id

namespace Named

structure At (this : UdsStreamScheme) (id : Nat) (socket : Socket) : Prop where
  unbound : socket.state = .unbound → socket.path = none
  bound : socket.state ≠ .bound
  paths : ∀ {token path}, socket.issuedToken = some token → socket.path = some path →
    this.socketPaths.get? path = some id
  tokens : ∀ {token}, socket.issuedToken = some token → this.socketTokens.get? token = some id

theorem of_at (all : ∀ {id socket}, after.getSocket id = some socket → At after id socket) :
    Named after where
  unbound found := (all found).unbound
  bound found := (all found).bound
  paths found := (all found).paths
  tokens found := (all found).tokens

end Named

/-- Tokens do not collide, and a socket that has a path without being bound is
closed only after its peer. -/
def Unborrowed (this : UdsStreamScheme) : Event → Prop
  | .bind _ _ token => this.socketTokens.get? token = none
  | .close id =>
    ((this.getSocket id).all fun socket =>
      socket.path.isNone || socket.issuedToken.isSome ||
        (socket.state.connected && socket.connection.all fun connection =>
          (this.getSocket connection.peer).isNone)) = true
  | _ => True

instance (this : UdsStreamScheme) : (event : Event) → Decidable (Unborrowed this event)
  | .bind _ _ _ => inferInstanceAs (Decidable (_ = none))
  | .close _ => inferInstanceAs (Decidable (_ = true))
  | .schemeRoot | .openat .. | .connect .. | .unbind _ | .setsockopt .. | .sendmsg .. | .recvmsg ..
  | .dupListen .. | .dupConnect .. | .dupRecvfd _ | .write .. | .read .. | .sendfd .. | .recvfd ..
  | .setFlags .. => instDecidableTrue

inductive Naming (before : UdsStreamScheme) (event : Event) (after : UdsStreamScheme) : Prop where
  | kept : Carried before after none → SameRegistries before after → Naming before event after
  | bound {id socket path token} : event = .bind id (some path) token →
      before.getSocket id = some socket → socket.state = .unbound →
      before.socketPaths.get? path = none → before.socketTokens.get? token = none →
      after = { before.setSocket id
            { socket with path := some path, state := .listening, issuedToken := some token } with
          socketPaths := before.socketPaths.insert path id
          socketTokens := before.socketTokens.insert token id } →
      Naming before event after
  | left {id} : event = .close id → Carried before after (some id) →
      SameRegistries before after → Naming before event after
  | released {id socket} : event = .close id → before.getSocket id = some socket →
      socket.path = none ∨ socket.issuedToken.isSome = true → Carried before after (some id) →
      after.socketPaths = before.socketPaths.eraseOf socket.path →
      after.socketTokens = before.socketTokens.eraseOf socket.issuedToken →
      Naming before event after

theorem Closes.naming {id} (closes : Closes before id after)
    (careful : Unborrowed before (.close id)) : Naming before (.close id) after := by
  -- The registries of a closed socket are cleared only if it was bound itself.
  have owned : ∀ {socket}, before.getSocket id = some socket →
      (socket.state.connected = true → ∀ connection, socket.connection = some connection →
        before.getSocket connection.peer ≠ none) →
      (socket.state.connected = true → socket.connection ≠ none) →
      socket.path = none ∨ socket.issuedToken.isSome = true := by
    intro socket found facing connected
    simp only [Unborrowed, found, all_some, Bool.or_eq_true, Bool.and_eq_true,
      isNone_iff_eq_none] at careful
    rcases careful with (unnamed | issued) | ⟨state, alone⟩
    · exact .inl unnamed
    · exact .inr issued
    cases held : socket.connection with
    | none => exact absurd held (connected state)
    | some connection =>
      rw [held, all_some, isNone_iff_eq_none] at alone
      exact absurd alone (facing state connection held)
  have closed : (before.without id).handles.get? id = none := get?_erase_self _ _
  cases closes with
  | absent | alone => exact .left rfl .without ⟨rfl, rfl⟩
  | @listener socket found listening =>
    obtain ⟨carried, paths, tokens⟩ :=
      closeWaiting_carried ((before.without id).forget socket)
    have unconnected : socket.state.connected ≠ true := by simp [listening, State.connected]
    exact .released rfl found
      (owned found (fun state => absurd state unconnected) (fun state => absurd state unconnected))
      ((Carried.without.registries _ _).trans carried) paths tokens
  | @parted socket connection remote other found connected held present back =>
    have facing : before.getSocket connection.peer ≠ none := by
      rw [getSocket_without] at present
      split at present
      · cases present
      · simp [present]
    have named := owned found
      (fun _ own same => by cases held.symm.trans same; exact facing) (fun _ => by simp [held])
    have shut : remote.SameNames
        { remote with connection := some { other with isPeerShutdown := true } } :=
      ⟨rfl, rfl, fun state => state, fun state => state⟩
    have told := Carried.without.trans (Carried.set (get?_of_getSocket present) shut)
    exact .released rfl found named ((told.registries _ _).trans (.setClosed closed)) rfl rfl
  | @unconnected socket found _ unconnected =>
    have named := owned found (fun state => by simp [unconnected] at state)
      (fun state => by simp [unconnected] at state)
    exact .released rfl found named
      ((Carried.without.registries _ _).trans (.setClosed closed)) rfl rfl

theorem Effect.naming {event output} (effect : Effect before event output after)
    (wellFormed : WellFormed before) (named : Named before)
    (careful : Unborrowed before event) : Naming before event after := by
  -- Most requests change one open socket, in something else than its names.
  have kept : ∀ {id socket changed}, before.getSocket id = some socket →
      changed.path = socket.path → changed.issuedToken = socket.issuedToken →
      (changed.state = socket.state ∨ changed.state = .established) →
      Naming before event (before.setSocket id changed) := by
    intro id socket changed found path token state
    refine .kept (.set (get?_of_getSocket found) ?_) ⟨rfl, rfl⟩
    rcases state with same | established
    · exact ⟨path, token, fun state => same ▸ state, fun state => same ▸ state⟩
    · exact .state path token (by simp [established]) (by simp [established])
  have unused := wellFormed.unused le_rfl
  -- Nothing is bound without listening, so only nameless sockets begin to listen.
  have starting : ∀ {id socket between}, before.getSocket id = some socket →
      Starts id socket before between →
      socket.state = .unbound ∨ socket.state = .bound →
      Carried before between none ∧ SameRegistries before between := by
    intro id socket between found starts state
    have unbound := state.resolve_right (named.bound found)
    have listening : socket.SameNames { socket with state := .listening } :=
      .state rfl rfl (by simp) (by simp)
    cases starts with
    | unnamed => exact ⟨.set (get?_of_getSocket found) listening, rfl, rfl⟩
    | named path => simp [named.unbound found unbound] at path
  cases effect with
  | refused | nothing | eof => exact .kept .refl ⟨rfl, rfl⟩
  | root => exact .kept (.schemeRoot wellFormed) ⟨rfl, rfl⟩
  | opened =>
    exact .kept (.add unused ⟨rfl, fun _ => rfl, by simp [new]⟩) ⟨rfl, rfl⟩
  | bound found unbound _ free => exact .bound rfl found unbound free careful rfl
  | unbound found bound => exact absurd bound (named.bound found)
  | option found | flags found | parked found | read found | received found | obtained found
  | pairRefused found | sent _ _ _ found
  | passed _ _ _ found => exact kept found rfl rfl (.inl rfl)
  | @connecting id _ _ listenerId client listener _ found registered different =>
    have queued : Carried before
        (before.setSocket listenerId (listener.enqueue client.primaryId)) none :=
      .set registered ⟨rfl, rfl, fun state => state, fun state => state⟩
    have moved : client.SameNames (client.connectTo listener.primaryId) :=
      .state rfl rfl (by simp [connectTo]) (by simp [connectTo])
    refine .kept (queued.trans (.set ?_ moved)) ⟨rfl, rfl⟩
    exact get?_of_getSocket (getSocket_other found different)
  | finished found => exact kept found rfl rfl (.inr rfl)
  | startRefused found state starts =>
    obtain ⟨carried, same⟩ := starting found starts state
    exact .kept carried same
  | started found state starts accepting =>
    obtain ⟨carried, paths, tokens⟩ := starting found starts state
    obtain ⟨rest, morePaths, moreTokens⟩ := accepting.carried (starts.present found wellFormed)
      ((starts.change found).wellFormed wellFormed)
    exact .kept (carried.trans rest) ⟨morePaths.trans paths, moreTokens.trans tokens⟩
  | listened found _ accepting =>
    obtain ⟨carried, same⟩ := accepting.carried ⟨wellFormed.lt_nextId found, _, found⟩ wellFormed
    exact .kept carried same
  | @paired id _ socket found =>
    have queued : Carried before (before.setSocket id (socket.enqueue before.nextId)) none :=
      .set (get?_of_getSocket found) ⟨rfl, rfl, fun state => state, fun state => state⟩
    have different := (wellFormed.lt_nextId found).ne'
    refine .kept (queued.trans (.add ?_ ?_)) ⟨rfl, rfl⟩
    · exact (getSocket_setSocket_ne different).trans unused
    · exact ⟨rfl, by simp [connectTo], by simp [connectTo]⟩
  | closed closes => exact closes.naming careful

theorem Carried.named (carried : Carried before after gone) (named : Named before)
    (paths : ∀ {id socket token path}, gone ≠ some id → before.getSocket id = some socket →
      socket.issuedToken = some token → socket.path = some path →
      after.socketPaths.get? path = before.socketPaths.get? path)
    (tokens : ∀ {id socket token}, gone ≠ some id → before.getSocket id = some socket →
      socket.issuedToken = some token →
      after.socketTokens.get? token = before.socketTokens.get? token) : Named after := by
  refine .of_at fun {id changed} found => ?_
  rcases carried.back found with ⟨old, stays, present, same⟩ | fresh
  · refine ⟨?_, fun state => named.bound present (same.bound state), ?_, ?_⟩
    · exact fun state => same.path.trans (named.unbound present (same.unbound state))
    · intro token path issued called
      rw [same.issuedToken] at issued
      rw [same.path] at called
      rw [paths stays present issued called]
      exact named.paths present issued called
    · intro token issued
      rw [same.issuedToken] at issued
      rw [tokens stays present issued]
      exact named.tokens present issued
  · exact ⟨fresh.unbound, fresh.bound, by simp [fresh.issuedToken], by simp [fresh.issuedToken]⟩

theorem Naming.named_after {event} (naming : Naming before event after)
    (named : Named before) : Named after := by
  cases naming with
  | kept carried same | left _ carried same =>
    exact carried.named named (fun _ _ _ _ => by rw [same.1]) (fun _ _ _ => by rw [same.2])
  | @released id closed _ found owned carried paths tokens =>
    refine carried.named named ?_ ?_
    · intro other socket token path stays present issued own
      rw [paths, Table.get?_eraseOf, if_neg]
      intro same
      -- Two bound sockets cannot have one path.
      rcases owned with unnamed | issuedToo
      · simp [unnamed] at same
      obtain ⟨token, issuedToo⟩ := isSome_iff_exists.mp issuedToo
      have one := named.paths found issuedToo same
      have two := named.paths present issued own
      exact stays (one.symm.trans two)
    · intro other socket token stays present issued
      rw [tokens, Table.get?_eraseOf, if_neg]
      intro same
      exact stays ((named.tokens found same).symm.trans (named.tokens present issued))
  | @bound id socket path token _ found unbound freePath freeToken equal =>
    subst equal
    refine .of_at fun {other changed} present => ?_
    change (before.setSocket id _).getSocket other = some changed at present
    by_cases here : other = id
    · subst here
      cases (getSocket_setSocket_self found).symm.trans present
      refine ⟨nofun, nofun, ?_, ?_⟩
      · rintro issued name _ ⟨⟩
        exact get?_insert_self _ _ _
      · rintro issued ⟨⟩
        exact get?_insert_self _ _ _
    -- The other open sockets are as they were.
    rw [getSocket_setSocket_ne here] at present
    refine ⟨named.unbound present, named.bound present, ?_, ?_⟩
    · intro issued name same named_
      have registered := named.paths present same named_
      have different : name ≠ path := by
        rintro rfl
        cases freePath.symm.trans registered
      exact (get?_insert_of_ne _ different).trans registered
    · intro issued same
      have registered := named.tokens present same
      have different : issued ≠ token := by
        rintro rfl
        cases freeToken.symm.trans registered
      exact (get?_insert_of_ne _ different).trans registered

theorem named_start : Named stream.start :=
  .of_at fun found => by cases get?_of_getSocket found

theorem unborrowed_named {state} (reached : stream.ReachableWhile Unborrowed state) :
    Named state := by
  refine reached.invariant named_start ?_
  intro before event after output earlier named careful stepped
  have naming := (step_effect stepped).naming (reachable_wellFormed earlier) named careful
  exact naming.named_after named

def Holds (this : UdsStreamScheme) (id : Nat) (path : Name) (token : Nat) : Prop :=
  ∃ socket, this.getSocket id = some socket ∧ socket.path = some path ∧
    socket.issuedToken = some token ∧ socket.state ≠ .unbound

variable {token : Nat} {path : Name}

theorem Carried.holds {id} (carried : Carried before after gone) (stays : gone ≠ some id)
    (holds : Holds before id path token) : Holds after id path token := by
  obtain ⟨socket, found, named, issued, state⟩ := holds
  obtain ⟨changed, present, same⟩ := carried.forth stays found
  exact ⟨changed, present, same.path.trans named, same.issuedToken.trans issued,
    fun unbound => state (same.unbound unbound)⟩

theorem Naming.holds {event id} (naming : Naming before event after) (stays : event ≠ .close id)
    (holds : Holds before id path token) : Holds after id path token := by
  cases naming with
  | kept carried => exact carried.holds (by simp) holds
  | left closed carried | released closed _ _ carried =>
    exact carried.holds (fun same => stays (closed.trans (by rw [some.inj same]))) holds
  | @bound other socket _ _ _ found unbound _ _ equal =>
    obtain ⟨actual, present, rest⟩ := holds
    have different : id ≠ other := by
      rintro rfl
      cases found.symm.trans present
      exact rest.2.2 unbound
    subst equal
    exact ⟨actual, (getSocket_setSocket_ne different).trans present, rest⟩

theorem Effect.holds_of_bind {id}
    (effect : Effect before (.bind id (some path) token) (some (.ok (.count 0))) after) :
    path ≠ [] ∧ Holds after id path token := by
  cases effect with
  | nothing _ other => exact absurd rfl (other _ _ _)
  | bound found _ nonempty =>
    exact ⟨nonempty, _, getSocket_setSocket_self found, rfl, rfl, by simp⟩
  | sent _ _ _ _ _ _ sends => cases sends
  | obtained _ _ _ _ obtains => cases obtains

def Binds (id : Nat) (path : Name) (token : Nat)
    (transition : Transition UdsStreamScheme Event (Result Reply)) : Prop :=
  transition.event = .bind id (some path) token ∧ transition.output = some (.ok (.count 0))

def Releases (id : Nat) (transition : Transition UdsStreamScheme Event (Result Reply)) : Prop :=
  transition.event = .close id ∨
    transition.event = .unbind id ∧ transition.output = some (.ok (.count 0))

/-- A socket was bound in a run, and neither closed nor unbound since. -/
def BoundSince (history : List (Transition UdsStreamScheme Event (Result Reply))) (id : Nat)
    (path : Name) (token : Nat) : Prop :=
  ∃ earlier binding later, history = earlier ++ binding :: later ∧
    Binds id path token binding ∧ ∀ transition ∈ later, ¬ Releases id transition

theorem run_holds {state history earlier later binding id token}
    (run : stream.Run Unborrowed history state)
    (made : history = earlier ++ binding :: later) (binds : Binds id path token binding)
    (held : ∀ transition ∈ later, ¬ Releases id transition) :
    path ≠ [] ∧ Holds state id path token := by
  obtain ⟨before, stepped, careful, onward⟩ := run.split made
  have bound := before.step careful stepped
  clear made run
  induction onward with
  | start =>
    have effect := step_effect stepped
    rw [binds.1, binds.2] at effect
    exact effect.holds_of_bind
  | @step history state event output next taken careful stepped ih =>
    obtain ⟨nonempty, holds⟩ := ih fun transition member => held transition (by simp [member])
    have reached : stream.ReachableWhile Unborrowed state := ⟨_, bound.append taken⟩
    have naming := (step_effect stepped).naming (reachable_wellFormed reached)
      (unborrowed_named reached) careful
    refine ⟨nonempty, naming.holds ?_ holds⟩
    intro closed
    exact held ⟨state, event, output, next⟩ (by simp) (.inl closed)

/-- While no socket with a borrowed path is closed before its peer, a bound socket
is registered under its path and its token until it is closed. -/
theorem bound_paths_stable {history : List (Transition UdsStreamScheme Event (Result Reply))}
    {state : UdsStreamScheme} (run : stream.Run Unborrowed history state) {id token : Nat}
    {path : Name} (bound : BoundSince history id path token) :
    state.socketPaths.get? path = some id ∧ state.socketTokens.get? token = some id ∧
      ∀ other another,
        state.handleBind other (some path) another = some (state, .error .EADDRINUSE) := by
  obtain ⟨earlier, binding, later, made, binds, held⟩ := bound
  obtain ⟨nonempty, socket, found, named, issued, _⟩ := run_holds run made binds held
  have names := unborrowed_named ⟨_, run⟩
  have registered := names.paths found issued named
  refine ⟨registered, names.tokens found issued, ?_⟩
  intro other another
  unfold handleBind
  dsimp only
  rw [if_neg nonempty, if_pos (by simp [contains, registered])]
  rfl

/-- Socket 1 is bound, and accepts socket 2 as socket 3. -/
def acceptOne : List Event :=
  [.schemeRoot, .openat 0 [] 0x02000000, .openat 0 [] 0x02000000, .bind 1 (some [0x61]) 7,
    .connect 2 (leBytes 8 7) none, .dupListen 1 (fun _ => none)]

theorem boundSince_of_events {history binding}
    (later : List Event) (fourth : history[3]? = some binding) (binds : Binds 1 [0x61] 7 binding)
    (same : (history.drop 4).map Transition.event = later)
    (others : ∀ event ∈ later, event ≠ .close 1 ∧ event ≠ .unbind 1) :
    BoundSince history 1 [0x61] 7 := by
  obtain ⟨within, found⟩ := List.getElem?_eq_some_iff.mp fourth
  refine ⟨history.take 3, binding, history.drop 4, ?_, binds, ?_⟩
  · rw [← found, ← List.drop_eq_getElem_cons within, List.take_append_drop]
  · intro transition member releases
    have taken : transition.event ∈ later := same ▸ List.mem_map_of_mem member
    rcases releases with closed | ⟨unbound, _⟩
    · exact (others _ taken).1 closed
    · exact (others _ taken).2 unbound

theorem bound_paths_stable_accept :
    ∃ history state, stream.Run Unborrowed history state ∧ BoundSince history 1 [0x61] 7 ∧
      state.socketPaths.get? [0x61] = some 1 ∧ state.socketTokens.get? 7 = some 1 ∧
      ∀ other another,
        state.handleBind other (some [0x61]) another = some (state, .error .EADDRINUSE) := by
  have run := stream.run_replay Unborrowed (acceptOne ++ [.close 2, .close 3]) (by decide +kernel)
  have bound : BoundSince ((stream.replay Unborrowed stream.start
      (acceptOne ++ [.close 2, .close 3])).get (by decide +kernel)).1 1 [0x61] 7 :=
    boundSince_of_events (acceptOne.drop 4 ++ [.close 2, .close 3]) rfl ⟨rfl, rfl⟩ rfl
      (by simp [acceptOne])
  exact ⟨_, _, run, bound, bound_paths_stable run bound⟩

/-- The listener is open, but its path was unregistered by a connection. -/
theorem accepted_close_unregisters : ∃ history state, stream.Run (fun _ _ => True) history state ∧
      BoundSince history 1 [0x61] 7 ∧ (state.getSocket 1).isSome = true ∧
      state.socketPaths.get? [0x61] = none ∧
      ∃ after, state.handleBind 4 (some [0x61]) 8 = some (after, .ok (.count 0)) := by
  have run := stream.run_replay (fun _ _ => True)
    (acceptOne ++ [.close 3, .openat 0 [] 0x02000000]) (by decide +kernel)
  have bound : BoundSince ((stream.replay (fun _ _ => True) stream.start
      (acceptOne ++ [.close 3, .openat 0 [] 0x02000000])).get (by decide +kernel)).1 1 [0x61] 7 :=
    boundSince_of_events (acceptOne.drop 4 ++ [.close 3, .openat 0 [] 0x02000000]) rfl
      ⟨rfl, rfl⟩ rfl (by simp [acceptOne])
  exact ⟨_, _, run, bound, rfl, rfl, _, rfl⟩

end EosBase.Uds.Stream
