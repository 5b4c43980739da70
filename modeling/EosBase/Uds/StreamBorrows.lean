import EosBase.Uds.StreamState

/-!
# Stream sockets that are borrowed together

A handler that holds two sockets finds the second one through the first: as its
peer, or in its queue.  No socket leads to itself that way.  The tokens that
`connect` looks up are another matter.
-/

namespace EosBase.Uds.Stream

open Redox UdsStreamScheme Table Connection Option

inductive GetOpt where
  | domain
  | peercred
  | sndbuf
  | other
  deriving DecidableEq, Repr

/-- `handle_getsockopt`; `ucred` are the credentials of the socket with a number. -/
def UdsStreamScheme.handleGetsockopt (this : UdsStreamScheme) (ucred : Nat → List UInt8) (id : Nat)
    (option : GetOpt) (payloadLen : Nat) : Option (Result Reply) :=
  match option with
  | .domain => some (writeValue (leBytes 4 1))
  | .peercred =>
    (this.getConnectedPeer id).map fun peer => peer.bind fun (remoteId, _) =>
      writeValue (ucred remoteId)
  | .sndbuf => some (writeValue (leBytes 4 212992))
  | .other => some (.error .ENOPROTOOPT)
where
  writeValue (value : List UInt8) : Result Reply :=
    if payloadLen < value.length then .error .ENOBUFS
    else .ok (.message (value ++ List.replicate (payloadLen - value.length) 0) value.length)

def Apart (sockets : Table Nat Socket) : Prop :=
  ∀ id socket, sockets.get? id = some socket →
    id ∉ socket.awaiting ∧ socket.connection.map peer ≠ some id

variable {this before after next : UdsStreamScheme} {id client : Nat} {queue : List Nat}
  {socket listener changed : Socket} {sockets : Table Nat Socket}

theorem Apart.insert (apart : Apart sockets) (others : id ∉ changed.awaiting)
    (peer : changed.connection.map peer ≠ some id) :
    Apart (sockets.insert id changed) := by
  intro other found present
  rcases of_insert present with ⟨rfl, rfl⟩ | ⟨_, present⟩
  · exact ⟨others, peer⟩
  · exact apart other found present

theorem Change.apart (change : Change before after) (wellFormed : WellFormed before)
    (apart : Apart before.sockets) : Apart after.sockets := by
  induction change with
  | refl | root | without => exact apart
  | trans one _ first second => exact second (one.wellFormed wellFormed) (first wellFormed apart)
  | keep found same fewer =>
    obtain ⟨others, peer⟩ := apart _ _ found
    exact apart.insert (fun member => others (fewer member)) (same.peer ▸ peer)
  | enqueue found different =>
    obtain ⟨others, peer⟩ := apart _ _ found
    exact apart.insert (by simp [Socket.enqueue, others, different.symm]) peer
  | face found _ different =>
    refine apart.insert (apart _ _ found).1 ?_
    simpa [Socket.connectTo, new] using different
  | add _ queue peer =>
    refine apart.insert (queue ▸ List.not_mem_nil) fun own => ?_
    obtain ⟨connection, held, same⟩ := map_eq_some_iff.mp own
    obtain ⟨_, present⟩ := peer connection held
    exact (wellFormed.numbered present).2.1.ne same
  | join found =>
    have below := wellFormed.lt_nextId found
    refine (apart.insert ?_ ?_).insert ?_ ?_
    · exact (apart _ _ (get?_of_getSocket found)).1
    · simp [Socket.acceptedBy, below.ne']
    · exact List.not_mem_nil
    · simp [acceptedSocket, new, below.ne]

theorem reachable_apart (reached : stream.Reachable this) : Apart this.sockets := by
  apply reached.invariant
  · intro id socket found
    cases (get?_empty).symm.trans found
  · intro before event after output earlier apart _ stepped
    have wellFormed := reachable_wellFormed earlier
    exact ((step_effect stepped).change wellFormed).apart wellFormed apart

section

variable (apart : Apart this.sockets)

include apart

theorem getConnectedPeer_borrows : this.getConnectedPeer id ≠ none := by
  unfold getConnectedPeer
  split
  · nofun
  next socket found =>
  have different := (apart _ _ (get?_of_getSocket found)).2
  split
  · nofun
  next connection held =>
  rw [held] at different
  split
  · nofun
  · rw [if_neg fun same => different (congrArg some same)]
    split <;> nofun

theorem write_borrows {posted buf cred} : this.write id buf cred posted ≠ none := by
  unfold write
  split
  next refused => exact absurd refused (getConnectedPeer_borrows apart)
  · nofun
  split
  · split
    · nofun
    · split <;> nofun
  · split <;> nofun

theorem handleSendmsg_borrows {posted noWait stream creds} :
    this.handleSendmsg id noWait stream creds posted ≠ none := by
  unfold handleSendmsg
  split
  · nofun
  split
  · nofun
  split
  next refused => exact absurd refused (getConnectedPeer_borrows apart)
  · nofun
  dsimp only
  split
  · nofun
  · split <;> nofun

omit apart in
theorem acceptLoop_borrows {posted : Nat → Option Errno} (others : id ∉ queue) :
    acceptLoop posted id listener queue this ≠ none := by
  induction queue generalizing this with
  | nil => exact some_ne_none _
  | cons client rest ih =>
    obtain ⟨different, others⟩ := not_or.mp (mt List.mem_cons.mpr others)
    unfold acceptLoop
    dsimp only
    split
    next refused =>
      unfold acceptConnection at refused
      split at refused
      · cases refused
      rw [if_neg (Ne.symm different)] at refused
      split at refused
      · cases refused
      · split at refused <;> cases refused
    · exact some_ne_none _
    · exact ih others
    · exact ih others
    · exact some_ne_none _

theorem handleListen_borrows {posted} : this.handleListen id posted ≠ none := by
  unfold handleListen
  split
  · nofun
  next socket found =>
  have others := (apart _ _ (get?_of_getSocket found)).1
  split
  · exact acceptLoop_borrows others
  rcases handleStartListening_cases with
    ⟨error, same⟩ | ⟨_, after, _, same, _, rfl | rfl⟩ <;> rw [same]
  · nofun
  · exact acceptLoop_borrows others
  · nofun

end

theorem onClose_borrows : this.onClose id ≠ none := by
  unfold onClose
  dsimp only
  split
  · nofun
  split
  next held => exact absurd held not_mem_closureBorrows
  · split <;> nofun

def OwnToken (this : UdsStreamScheme) (id : Nat) (tokenBuf : List UInt8) : Prop :=
  ∃ token, readNum 8 tokenBuf = .ok token ∧ this.socketTokens.get? token = some id ∧
    this.getSocket id ≠ none

theorem startConnecting_borrows {listenerId posted} :
    this.startConnecting id listenerId socket listener posted ≠ none := by
  unfold startConnecting
  split <;> nofun

theorem handleConnect_borrows {tokenBuf posted} :
    this.handleConnect id tokenBuf posted = none ↔ OwnToken this id tokenBuf := by
  constructor
  · intro refused
    unfold handleConnect at refused
    split at refused
    · cases refused
    next token read =>
    split at refused
    · cases refused
    next listenerId issued =>
    split at refused
    next client listener found registered =>
      split at refused
      next same => exact ⟨token, read, same ▸ issued, by rw [found]; nofun⟩
      split at refused
      · split at refused
        · cases refused
        · exact absurd refused startConnecting_borrows
      · cases refused
      · cases refused
      · exact absurd refused startConnecting_borrows
    · cases refused
  · rintro ⟨token, read, issued, open_⟩
    obtain ⟨client, found⟩ := ne_none_iff_exists'.mp open_
    unfold handleConnect
    rw [read]
    dsimp only
    rw [issued]
    dsimp only
    rw [found, get?_of_getSocket found]
    exact if_pos rfl

/-- No request that holds two sockets is given one socket twice, and a socket that
connects to its own token is told so. -/
structure BorrowsOnce (this : UdsStreamScheme) (id : Nat) (tokenBuf : List UInt8) : Prop where
  connect : ∀ posted, this.handleConnect id tokenBuf posted ≠ none
  own : OwnToken this id tokenBuf → ∀ posted, ∃ after error,
    this.handleConnect id tokenBuf posted = some (after, .error error)
  write : ∀ id buf cred posted, this.write id buf cred posted ≠ none
  sendmsg : ∀ id noWait stream creds posted,
    this.handleSendmsg id noWait stream creds posted ≠ none
  accept : ∀ id posted, this.handleListen id posted ≠ none
  getsockopt : ∀ ucred id option payloadLen,
    this.handleGetsockopt ucred id option payloadLen ≠ none
  close : ∀ id, this.onClose id ≠ none

/-- A socket is borrowed twice exactly when it connects with its own token. -/
theorem borrows_once_iff {this : UdsStreamScheme} (reached : stream.Reachable this) (id : Nat)
    (tokenBuf : List UInt8) : BorrowsOnce this id tokenBuf ↔ ¬ OwnToken this id tokenBuf := by
  have apart := reachable_apart reached
  constructor
  · intro once own
    exact once.connect none (handleConnect_borrows.mpr own)
  · intro other
    refine ⟨?_, fun own => absurd own other, ?_, ?_, ?_, ?_, ?_⟩
    · exact fun posted refused => other (handleConnect_borrows.mp refused)
    · exact fun _ _ _ _ => write_borrows apart
    · exact fun _ _ _ _ _ => handleSendmsg_borrows apart
    · exact fun _ _ => handleListen_borrows apart
    · intro ucred id option payloadLen
      cases option with
      | peercred => exact map_eq_none_iff.not.mpr (getConnectedPeer_borrows apart)
      | domain | sndbuf | other => nofun
    · exact fun _ => onClose_borrows

/-- A socket with the token 7, and another one. -/
def bindOne : List Event :=
  [.schemeRoot, .openat 0 [] 0x02000000, .openat 0 [] 0x02000000, .bind 1 (some [0x61]) 7]

theorem borrows_once_other : ∃ this, stream.Reachable this ∧ BorrowsOnce this 2 (leBytes 8 7) := by
  have reached := stream.reachable_replay bindOne (by decide +kernel)
  refine ⟨_, reached, (borrows_once_iff reached 2 _).mpr fun own => ?_⟩
  cases (@handleConnect_borrows _ _ _ none).mpr own

/-- Connecting a bound socket with its own token panics. -/
theorem own_token_panics : ∃ this, stream.Reachable this ∧
    this.handleConnect 1 (leBytes 8 7) none = none ∧ ¬ BorrowsOnce this 1 (leBytes 8 7) := by
  have reached := stream.reachable_replay bindOne (by decide +kernel)
  exact ⟨_, reached, rfl, fun once => once.connect none rfl⟩

end EosBase.Uds.Stream
