import EosBase.Netstack.Socket
import Mathlib.Data.List.Infix

/-!
# Writing to a TCP socket

`write_buf` reports the whole buffer as written, also where the stack takes only the front
of it.  A client that goes on with what was not reported loses the bytes in between.
-/

namespace EosBase.Netstack

open Redox List Option

/-- What smoltcp decides about a socket.  There is no result when `send_slice` fails. -/
structure Stack (Socket : Type) where
  isActive : Socket → Bool
  canSend : Socket → Bool
  txBuffer : Socket → List UInt8
  sendSlice : Socket → List UInt8 → Option (Socket × Nat)

/-- `send_slice` enqueues the front of its argument and returns the length of it. -/
structure Stack.Enqueues {Socket : Type} (stack : Stack Socket) : Prop where
  bounded : ∀ {socket data after count}, stack.sendSlice socket data = some (after, count) →
    count ≤ data.length
  grows : ∀ {socket data after count}, stack.sendSlice socket data = some (after, count) →
    stack.txBuffer after = stack.txBuffer socket ++ data.take count

variable {Socket : Type} {stack : Stack Socket} {file : SocketFile}

namespace Stack

variable (stack)

def writeBuf (socket : Socket) (file : SocketFile) (buf : List UInt8) :
    Option (Socket × Result Nat) :=
  if !file.writeEnabled then some (socket, .error .EPIPE)
  else if !stack.isActive socket then some (socket, .error .ENOTCONN)
  else if stack.canSend socket then
    (stack.sendSlice socket buf).map fun sent => (sent.1, .ok buf.length)
  else if file.nonblocking then some (socket, .error .EAGAIN)
  else some (socket, .error .EWOULDBLOCK)

def sends (socket : Socket) (file : SocketFile) : Bool :=
  file.writeEnabled && stack.isActive socket && stack.canSend socket

variable {stack} {socket : Socket}

theorem writeBuf_of_sends (sends : stack.sends socket file = true) (buf : List UInt8) :
    stack.writeBuf socket file buf =
      (stack.sendSlice socket buf).map fun sent => (sent.1, .ok buf.length) := by
  unfold writeBuf
  grind [Stack.sends]

theorem writeBuf_of_not_sends (waits : stack.sends socket file = false) (buf : List UInt8) :
    ∃ error, stack.writeBuf socket file buf = some (socket, .error error) := by
  unfold writeBuf
  split
  · exact ⟨_, rfl⟩
  split
  · exact ⟨_, rfl⟩
  · rw [if_neg (by simp_all [sends])]
    split <;> exact ⟨_, rfl⟩

end Stack

/-- A client that writes a stream, and goes on with what was not reported as written. -/
structure Writer (Socket : Type) where
  socket : Socket
  file : SocketFile
  handed : List UInt8
  rest : List UInt8

/-- The client offers the next bytes, for the first time or again after an error, or the
stack and other requests change the socket and its file. -/
inductive Writer.Event (Socket : Type) where
  | write (length : Nat)
  | others (socket : Socket) (file : SocketFile)

def Writer.told (stack : Stack Socket) (this : Writer Socket) (socket : Socket)
    (reply : Result Nat) : Writer Socket where
  socket := socket
  file := this.file
  handed := this.handed ++ (stack.txBuffer socket).drop (stack.txBuffer this.socket).length
  rest := match reply with
    | .ok count => this.rest.drop count
    | .error _ => this.rest

def writer (stack : Stack Socket) (socket : Socket) (file : SocketFile) (stream : List UInt8) :
    System (Writer Socket) (Writer.Event Socket) (Result Nat) where
  start := ⟨socket, file, [], stream⟩
  step this
    | .write length => (stack.writeBuf this.socket this.file (this.rest.take length)).map
      fun done => (this.told stack done.1 done.2, some done.2)
    | .others socket file => some ({ this with socket := socket, file := file }, none)

/-- What is reported as written is what the send buffer grew by. -/
def Reported (stack : Stack Socket) (this : Writer Socket) : Writer.Event Socket → Prop
  | .write length => ∀ after count,
      stack.writeBuf this.socket this.file (this.rest.take length) = some (after, .ok count) →
      stack.txBuffer after =
        stack.txBuffer this.socket ++ (this.rest.take length).take count
  | .others _ _ => True

def Fits (stack : Stack Socket) (this : Writer Socket) : Writer.Event Socket → Prop
  | .write length => stack.sends this.socket this.file = true → ∀ after count,
      stack.sendSlice this.socket (this.rest.take length) = some (after, count) →
      count = (this.rest.take length).length
  | .others _ _ => True

variable {this : Writer Socket} (enqueues : stack.Enqueues)

include enqueues

theorem reported_iff_fits {event} : Reported stack this event ↔ Fits stack this event := by
  cases event with
  | others => exact Iff.rfl
  | write length =>
    cases sends : stack.sends this.socket this.file with
    | true =>
      simp only [Reported, Fits, sends, true_implies, Stack.writeBuf_of_sends]
      cases sent : stack.sendSlice this.socket (this.rest.take length) with
      | none => simp
      | some taken =>
        have bounded := enqueues.bounded sent
        have grown := enqueues.grows sent
        constructor
        · rintro reported _ _ ⟨rfl⟩
          have whole := append_cancel_left (grown.symm.trans (reported _ _ rfl))
          rw [take_length] at whole
          exact bounded.antisymm (take_eq_self_iff _ |>.mp whole)
        · rintro fits _ _ ⟨rfl⟩
          rw [grown, fits _ _ rfl]
    | false =>
      obtain ⟨error, done⟩ := Stack.writeBuf_of_not_sends sends (this.rest.take length)
      simp [Reported, Fits, sends, done]

/-- The bytes that were handed over and those that are left are the stream after a write
that is taken whole, and too few after one that is not. -/
theorem writer_step {event socket stream after output}
    (stepped : (writer stack socket file stream).step this event = some (after, output)) :
    (Fits stack this event → after.handed ++ after.rest = this.handed ++ this.rest) ∧
    (¬ Fits stack this event →
      (after.handed ++ after.rest).length < (this.handed ++ this.rest).length) := by
  cases event with
  | others =>
    cases stepped
    exact ⟨fun _ => rfl, fun unfit => absurd trivial unfit⟩
  | write length =>
    cases sends : stack.sends this.socket this.file with
    | true =>
      simp only [writer, Stack.writeBuf_of_sends sends, Option.map_map, map_eq_some_iff] at stepped
      obtain ⟨⟨taken, count⟩, sent, same⟩ := stepped
      cases same
      have bounded := enqueues.bounded sent
      simp only [Fits, sends, sent, true_implies, Writer.told, enqueues.grows sent, drop_left]
      constructor
      · intro fits
        rw [fits _ _ rfl, take_length, append_assoc, ← prefix_append_drop ( take_prefix _ _)]
      · intro unfit
        have short : count ≠ (this.rest.take length).length := by
          rintro rfl
          exact unfit fun _ _ same => by cases same; rfl
        simp only [length_append, length_take, length_drop] at bounded short ⊢
        omega
    | false =>
      obtain ⟨error, done⟩ := Stack.writeBuf_of_not_sends sends (this.rest.take length)
      simp only [writer, done, map_some, some.injEq, Prod.mk.injEq] at stepped
      obtain ⟨rfl, rfl⟩ := stepped
      simp [Fits, sends, Writer.told]

theorem writer_run {socket stream final events history}
    (played : (writer stack socket file stream).replay (fun _ _ => True) this events =
      some (history, final)) :
    (final.handed ++ final.rest).length ≤ (this.handed ++ this.rest).length ∧
    (final.handed ++ final.rest = this.handed ++ this.rest ↔
      (writer stack socket file stream).Along (Fits stack) this events) := by
  induction events generalizing this history with
  | nil =>
    cases played
    exact ⟨le_rfl, iff_of_true rfl trivial⟩
  | cons event events ih =>
    simp only [System.replay, if_true] at played
    split at played
    next next output stepped =>
      obtain ⟨⟨later, _⟩, ended, same⟩ := map_eq_some_iff.mp played
      cases same
      obtain ⟨shorter, equal⟩ := ih ended
      obtain ⟨fit, unfit⟩ := writer_step enqueues stepped
      simp only [System.Along, stepped]
      by_cases fits : Fits stack this event
      · rw [fit fits] at shorter equal
        simp only [fits, true_and]
        exact ⟨shorter, equal⟩
      · have lost := shorter.trans_lt (unfit fits)
        refine ⟨lost.le, iff_of_false (fun whole => ?_) (fun along => fits along.1)⟩
        exact absurd (congrArg length whole) lost.ne
    · cases played

/-- Writes report what was queued, and the client's stream reaches the stack without a gap,
exactly when the stack takes every write that is sent to it as a whole. -/
theorem writes_reported_iff (socket : Socket) (file : SocketFile) (stream : List UInt8)
    (events : List (Writer.Event Socket)) :
    ((writer stack socket file stream).Along (Reported stack) ⟨socket, file, [], stream⟩ events ↔
      (writer stack socket file stream).Along (Fits stack) ⟨socket, file, [], stream⟩ events) ∧
    ∀ history final, (writer stack socket file stream).replay (fun _ _ => True)
      ⟨socket, file, [], stream⟩ events = some (history, final) →
      (final.handed ++ final.rest = stream ↔
        (writer stack socket file stream).Along (Fits stack) ⟨socket, file, [], stream⟩
          events) := by
  constructor
  · have same : Reported stack = Fits stack :=
      funext fun this => funext fun event => propext (reported_iff_fits enqueues)
    rw [same]
  · intro history final played
    exact (writer_run enqueues played).2

omit enqueues

/-- A stack with one connection, which is the bytes in its send buffer. -/
def boundedStack (capacity : Nat) : Stack (List UInt8) where
  isActive _ := true
  canSend socket := socket.length < capacity
  txBuffer socket := socket
  sendSlice socket data :=
    let taken := data.take (capacity - socket.length)
    some (socket ++ taken, taken.length)

theorem boundedStack_enqueues (capacity : Nat) : (boundedStack capacity).Enqueues where
  bounded sent := by
    cases sent
    exact length_take_le' _ _
  grows sent := by
    cases sent
    simp [boundedStack, take_eq_take_iff]

/-- Two writes fill a buffer of three bytes, one has to wait, and the last byte is taken
when the buffer was emptied. -/
def fourBytes : List (Writer.Event (List UInt8)) :=
  [.write 2, .write 1, .write 1, .others [] (.newWithData 0 none), .write 1]

theorem writes_reported_four :
    ∃ history final, (writer (boundedStack 3) [] (.newWithData 0 none) [1, 2, 3, 4]).replay
        (fun _ _ => True) ⟨[], .newWithData 0 none, [], [1, 2, 3, 4]⟩ fourBytes =
      some (history, final) ∧ final.handed ++ final.rest = [1, 2, 3, 4] := by
  refine ⟨_, _, rfl, ((writes_reported_iff (boundedStack_enqueues 3) []
    (.newWithData 0 none) [1, 2, 3, 4] fourBytes).2 _ _ rfl).mpr ?_⟩
  simp [fourBytes, System.Along, Fits, writer, boundedStack, Stack.writeBuf, Stack.sends,
    Writer.told, SocketFile.newWithData, SocketFile.nonblocking, nonblock,
    O_NONBLOCK]

/-- Two bytes are written where there is room for one: both are reported. -/
theorem short_write_reported : (boundedStack 1).Enqueues ∧ ∃ after,
    (boundedStack 1).writeBuf [] (.newWithData 0 none) [1, 2] = some (after, .ok 2) ∧
    (boundedStack 1).txBuffer after ≠ [1, 2] :=
  ⟨boundedStack_enqueues 1, _, rfl, by decide⟩

end EosBase.Netstack
