import EosBase.Lib.Transition
import EosBase.Redox.Syscall

/-!
# Pseudoterminals

`ptyd/src/pty.rs`, and the transfers of `controlterm.rs` and `subterm.rs`.  What is
written to the control terminal goes through `input` into the packets for the
subterminal, `mosi`.  What is put out goes to the control terminal in packets with a type
byte, `miso`.

A flag of `Termios` says whether its bits are set where the code looks for them; for
`IXON` that is `c_lflag`.  The signals that `input` sends and what it prints are left out.
-/

namespace EosBase.Ptyd

open Redox List

inductive Cc where
  | VEOF
  | VEOL
  | VEOL2
  | VERASE
  | VWERASE
  | VKILL
  | VREPRINT
  | VINTR
  | VQUIT
  | VSUSP
  | VSTART
  | VSTOP
  | VLNEXT
  | VDISCARD
  | VMIN
  | VTIME
  deriving DecidableEq, Repr

structure Termios where
  (inlcr igncr icrnl opost onlcr echo echoe echonl icanon isig iexten ixon : Bool)
  cc : Cc → UInt8

structure Pty where
  termios : Termios
  cooked : List UInt8
  miso : List (List UInt8)
  mosi : List (List UInt8)
  timeoutCount : Nat
  timeoutCharacter : Option Nat

namespace Termios

variable (termios : Termios)

def isCc (index : Cc) (b : UInt8) : Bool := b != 0 && b == termios.cc index

def isVdisable (index : Cc) : Bool := termios.cc index == 0

def translate (byte : UInt8) : UInt8 :=
  if byte = 0x0a then
    if termios.inlcr then 0x0d else byte
  else if byte = 0x0d then
    if termios.igncr then 0 else if termios.icrnl then 0x0a else byte
  else
    byte

/-- What `output` makes of a buffer. -/
def postprocess (buf : List UInt8) : List UInt8 :=
  buf.flatMap fun b => if termios.opost && termios.onlcr && b == 0x0a then [0x0d, b] else [b]

end Termios

namespace Pty

variable (this : Pty)

def output (buf : List UInt8) : Pty :=
  { this with miso := this.miso ++ [0 :: this.termios.postprocess buf] }

def pushCooked : Pty := { this with mosi := this.mosi ++ [this.cooked], cooked := [] }

def endLine (echo : Bool) (b : UInt8) : Pty :=
  let this := if echo then this.output [b] else this
  pushCooked { this with cooked := this.cooked ++ [b] }

def erase : Pty :=
  if this.cooked = [] then this
  else
    let erased := { this with cooked := this.cooked.dropLast }
    if this.termios.echoe then erased.output [8, 0x20, 8] else erased

end Pty

/-- The bytes that a part of `input` handles, and what it does.  A handled byte is 0 for
the parts after it. -/
structure Stage where
  handles : UInt8 → Bool
  act : UInt8 → Pty → Pty

namespace Termios

variable (termios : Termios)

def ignored (index : Cc) (enabled : Bool) : Stage :=
  ⟨fun b => termios.isCc index b && enabled, fun _ this => this⟩

def stages : List Stage :=
  (if termios.icanon then
    [⟨(· == 0x0a), fun b this => this.endLine (termios.echo || termios.echonl) b⟩,
      ⟨termios.isCc .VEOF, fun _ this => this.pushCooked⟩,
      ⟨termios.isCc .VEOL, fun b this => this.endLine termios.echo b⟩,
      ⟨termios.isCc .VEOL2, fun b this => this.endLine termios.echo b⟩,
      ⟨fun b => termios.isCc .VERASE b && !termios.isVdisable .VERASE, fun _ => Pty.erase⟩,
      termios.ignored .VWERASE termios.iexten, termios.ignored .VKILL true,
      termios.ignored .VREPRINT termios.iexten]
  else []) ++
  (if termios.isig then
    [Cc.VINTR, .VQUIT, .VSUSP].map fun index => termios.ignored index (!termios.isVdisable index)
  else []) ++
  (if termios.ixon then [termios.ignored .VSTART true, termios.ignored .VSTOP true] else []) ++
  [termios.ignored .VLNEXT termios.iexten, termios.ignored .VDISCARD termios.iexten]

end Termios

inductive Reply where
  | count (length : Nat)
  | bytes (data : List UInt8)
  deriving DecidableEq, Repr

namespace Pty

variable (this : Pty)

def staged (byte : UInt8) : Pty × UInt8 :=
  this.termios.stages.foldl
    (fun (this, b) stage => if stage.handles b then (stage.act b this, 0) else (this, b))
    (this, this.termios.translate byte)

def inputByte (byte : UInt8) : Pty :=
  let (this, b) := this.staged byte
  if b = 0 then this
  else
    let this := if this.termios.echo then this.output [b] else this
    { this with
      timeoutCharacter := some this.timeoutCount
      cooked := this.cooked ++ [b] }

def update : Pty :=
  let vmin := (this.termios.cc .VMIN).toNat
  let vtime := (this.termios.cc .VTIME).toNat
  let expired (since : Nat) : Bool := (since + vtime) % 2 ^ 64 ≤ this.timeoutCount
  if this.termios.icanon then this
  else if vtime = 0 then
    if vmin = 0 then
      if this.mosi = [] then this.pushCooked else this
    else
      if vmin ≤ this.cooked.length then this.pushCooked else this
  else if vmin = 0 then
    if this.cooked ≠ [] then this.pushCooked
    else
      match this.timeoutCharacter with
      | some since =>
        if expired since then
          let this := { this with timeoutCharacter := none }
          if this.mosi = [] then this.pushCooked else this
        else this
      | none => { this with timeoutCharacter := some this.timeoutCount }
  else if vmin ≤ this.cooked.length then this.pushCooked
  else if this.cooked ≠ [] ∧ this.timeoutCharacter.any expired then
    pushCooked { this with timeoutCharacter := none }
  else this

def timeout (count : Nat) : Pty :=
  if this.timeoutCount ≠ count then update { this with timeoutCount := count } else this

def input (buf : List UInt8) : Pty := (buf.foldl inputByte this).update

def controlWrite (buf : List UInt8) : Pty × Result Reply :=
  if 64 ≤ this.mosi.length then (this, .error .EWOULDBLOCK)
  else (this.input buf, .ok (.count buf.length))

/-- `PtyControlTerm::read`; `again` is whether `O_NONBLOCK` is set or no subterminal is
left. -/
def controlRead (again : Bool) (size : Nat) : Pty × Result Reply :=
  match this.miso with
  | [] => (this, .error (if again then .EAGAIN else .EWOULDBLOCK))
  | packet :: rest =>
    let i := min size packet.length
    let left := if i < packet.length then [packet.take 1 ++ packet.drop i] else []
    ({ this with miso := left ++ rest }, .ok (.bytes (packet.take i)))

def subRead (nonblock : Bool) (size : Nat) : Pty × Result Reply :=
  let this := this.update
  match this.mosi with
  | [] => (this, .error (if nonblock then .EAGAIN else .EWOULDBLOCK))
  | packet :: rest =>
    let i := min size packet.length
    let left := if i < packet.length then [packet.drop i] else []
    ({ this with mosi := left ++ rest }, .ok (.bytes (packet.take i)))

end Pty

inductive Event where
  | controlWrite (buf : List UInt8)
  | controlRead (again : Bool) (size : Nat)
  | subRead (nonblock : Bool) (size : Nat)
  | output (buf : List UInt8)
  | timeout (count : Nat)

def handle (this : Pty) : Event → Pty × Option (Result Reply)
  | .controlWrite buf => (this.controlWrite buf).map id some
  | .controlRead again size => (this.controlRead again size).map id some
  | .subRead nonblock size => (this.subRead nonblock size).map id some
  | .output buf => (this.output buf, none)
  | .timeout count => (this.timeout count, none)

def terminal (termios : Termios) : System Pty Event (Result Reply) where
  start := ⟨termios, [], [], [], 0, none⟩
  step this event := some (handle this event)

variable {termios : Termios} {this : Pty} {history : List (Transition Pty Event (Result Reply))}

structure Termios.Raw (termios : Termios) : Prop where
  icanon : termios.icanon = false
  isig : termios.isig = false
  iexten : termios.iexten = false
  inlcr : termios.inlcr = false
  igncr : termios.igncr = false
  icrnl : termios.icrnl = false
  echo : termios.echo = false
  vmin : termios.cc .VMIN = 1
  vtime : termios.cc .VTIME = 0

/-- A byte that `input` does not take for one that was handled. -/
def Termios.passes (termios : Termios) (byte : UInt8) : Bool :=
  byte != 0 && !(termios.ixon && (byte == termios.cc .VSTART || byte == termios.cc .VSTOP))

section

variable (raw : this.termios.Raw)

include raw

theorem staged_raw (byte : UInt8) :
    this.staged byte = (this, if this.termios.passes byte then byte else 0) := by
  have translated : this.termios.translate byte = byte := by
    simp [Termios.translate, raw.inlcr, raw.igncr, raw.icrnl]
  rw [Pty.staged, translated]
  by_cases ixon : this.termios.ixon = true
  · simp [Termios.stages, raw.icanon, raw.isig, raw.iexten, ixon, Termios.ignored, Termios.isCc,
      Termios.passes]
    grind
  · simp [Termios.stages, raw.icanon, raw.isig, raw.iexten, ixon, Termios.ignored, Termios.isCc,
      Termios.passes]

theorem inputByte_raw (byte : UInt8) : this.inputByte byte =
      if this.termios.passes byte then
        { this with
          timeoutCharacter := some this.timeoutCount
          cooked := this.cooked ++ [byte] }
      else this := by
  simp only [Pty.inputByte, staged_raw raw, raw.echo]
  grind [Termios.passes]

theorem foldl_inputByte_raw (buf : List UInt8) :
    (buf.foldl Pty.inputByte this).termios = this.termios ∧
      (buf.foldl Pty.inputByte this).mosi = this.mosi ∧
      (buf.foldl Pty.inputByte this).cooked = this.cooked ++ buf.filter this.termios.passes := by
  induction buf generalizing this with
  | nil => simp
  | cons byte buf ih =>
    rw [foldl_cons, inputByte_raw raw]
    split
    next passes =>
      obtain ⟨same, queued, kept⟩ := @ih { this with
        timeoutCharacter := some this.timeoutCount
        cooked := this.cooked ++ [byte] } raw
      exact ⟨same, queued, by rw [kept, filter_cons_of_pos passes, append_assoc, singleton_append]⟩
    next stops =>
      rw [filter_cons_of_neg stops]
      exact ih raw

theorem update_raw :
    this.update = if this.cooked = [] then this else this.pushCooked := by
  simp [Pty.update, raw.icanon, raw.vmin, raw.vtime, Nat.one_le_iff_ne_zero]

end

def written (step : Transition Pty Event (Result Reply)) : List UInt8 :=
  match step.event, step.output with
  | .controlWrite buf, some (.ok _) => buf
  | _, _ => []

def received (step : Transition Pty Event (Result Reply)) : List UInt8 :=
  match step.event, step.output with
  | .subRead _ _, some (.ok (.bytes data)) => data
  | _, _ => []

/-- What was read and what is left to read was written, and while something is left a read
takes some of it. -/
def Transparent (history : List (Transition Pty Event (Result Reply))) (this : Pty) : Prop :=
  history.flatMap received ++ this.mosi.flatten = history.flatMap written ∧
    ∀ nonblock size, 0 < size → this.mosi ≠ [] →
      ∃ data, data ≠ [] ∧ (this.subRead nonblock size).2 = .ok (.bytes data)

/-- In raw mode nothing is cooked between requests, and no packet is empty. -/
structure Pty.Settled (termios : Termios) (this : Pty) : Prop where
  same : this.termios = termios
  idle : this.cooked = []
  packets : [] ∉ this.mosi

/-- A request takes bytes from the front of the queue and appends those that pass. -/
theorem Pty.Settled.step {event after output} (raw : termios.Raw) (settled : this.Settled termios)
    (stepped : handle this event = (after, output)) :
    after.Settled termios ∧
      received ⟨this, event, output, after⟩ ++ after.mosi.flatten =
        this.mosi.flatten ++ (written ⟨this, event, output, after⟩).filter termios.passes := by
  obtain ⟨rfl, idle, packets⟩ := settled
  cases event with
  | output buf =>
    cases stepped
    exact ⟨⟨rfl, idle, packets⟩, (append_nil _).symm⟩
  | timeout count =>
    have still := (@update_raw { this with timeoutCount := count } raw).trans (if_pos idle)
    simp only [handle, Pty.timeout, still] at stepped
    split at stepped <;> cases stepped <;> exact ⟨⟨rfl, idle, packets⟩, (append_nil _).symm⟩
  | controlRead again size =>
    simp only [handle, Pty.controlRead] at stepped
    split at stepped <;> cases stepped <;>
      exact ⟨⟨rfl, idle, packets⟩, (append_nil _).symm⟩
  | controlWrite buf =>
    simp only [handle, Pty.controlWrite, Pty.input] at stepped
    split at stepped
    · cases stepped
      exact ⟨⟨rfl, idle, packets⟩, (append_nil _).symm⟩
    obtain ⟨same, queued, kept⟩ := foldl_inputByte_raw raw buf
    rw [idle, nil_append] at kept
    rw [update_raw (same ▸ raw)] at stepped
    cases stepped
    split
    next none =>
      refine ⟨⟨same, none, queued ▸ packets⟩, ?_⟩
      simp [received, written, queued, ← kept, none]
    next some =>
      refine ⟨⟨same, rfl, ?_⟩, ?_⟩
      · simp [Pty.pushCooked, queued, packets, Ne.symm some]
      · simp [received, written, Pty.pushCooked, queued, kept]
  | subRead nonblock size =>
    have still : this.update = this := by rw [update_raw raw, if_pos idle]
    simp only [handle, Pty.subRead, still] at stepped
    split at stepped
    · cases stepped
      exact ⟨⟨rfl, idle, packets⟩, (append_nil _).symm⟩
    next packet rest queue =>
    cases stepped
    rw [queue, mem_cons, not_or] at packets
    have left : packet.take (min size packet.length) ++
        (if min size packet.length < packet.length then [packet.drop (min size packet.length)]
          else []).flatten = packet := by
      split
      · simp
      next long => simp [take_of_length_le (not_lt.mp long)]
    refine ⟨⟨rfl, idle, ?_⟩, ?_⟩
    · split
      next short => simpa using ⟨by omega, packets.2⟩
      · exact packets.2
    · simp only [received, written, id, flatten_append, ← append_assoc, left, queue,
        flatten_cons, filter_nil, append_nil]

/-- In raw mode a terminal is transparent to what was written exactly if each byte of it
passes: 0 does not. -/
theorem raw_transparent_iff (raw : termios.Raw)
    (run : (terminal termios).Run (fun _ _ => True) history this) :
    Transparent history this ↔ ∀ byte ∈ history.flatMap written, termios.passes byte = true := by
  have both : this.Settled termios ∧ history.flatMap received ++ this.mosi.flatten =
      (history.flatMap written).filter termios.passes := by
    induction run with
    | start => exact ⟨⟨rfl, rfl, by simp [terminal]⟩, rfl⟩
    | step _ _ stepped ih =>
      obtain ⟨settled, moved⟩ := ih.1.step raw (Option.some.inj stepped)
      refine ⟨settled, ?_⟩
      rw [flatMap_append, flatMap_append, flatMap_singleton, flatMap_singleton, append_assoc, moved,
        ← append_assoc, ih.2, filter_append]
  obtain ⟨settled, bytes⟩ := both
  rw [Transparent, bytes, filter_eq_self, and_iff_left_iff_imp]
  intro _ nonblock size positive some
  have still : this.update = this := by rw [update_raw (settled.same ▸ raw), if_pos settled.idle]
  obtain ⟨packet, rest, queue⟩ := exists_cons_of_ne_nil some
  refine ⟨packet.take (min size packet.length), ?_, by simp only [Pty.subRead, still, queue]⟩
  have nonempty : packet ≠ [] := by
    rintro rfl
    exact settled.packets (by simp [queue])
  simpa using ⟨positive.ne', nonempty⟩

def rawTermios : Termios :=
  ⟨false, false, false, false, false, false, false, false, false, false, false, false,
    fun index => if index = .VMIN then 1 else 0⟩

theorem raw_transparent_pair :
    ∃ history this, (terminal rawTermios).Run (fun _ _ => True) history this ∧
      history.flatMap written = [3, 10] ∧ Transparent history this := by
  refine ⟨_, _, (terminal rawTermios).run_replay _ [.controlWrite [3, 10], .subRead true 1] rfl,
    rfl, ?_⟩
  apply (raw_transparent_iff ⟨rfl, rfl, rfl, rfl, rfl, rfl, rfl, rfl, rfl⟩
    ((terminal rawTermios).run_replay _ [.controlWrite [3, 10], .subRead true 1] rfl)).mpr
  decide +kernel

/-- The byte 0 is lost. -/
theorem raw_loses_zero : ∃ history this, (terminal rawTermios).Run (fun _ _ => True) history this ∧
      history.flatMap written = [0] ∧ ¬ Transparent history this := by
  refine ⟨_, _, (terminal rawTermios).run_replay _ [.controlWrite [0]] rfl, rfl, ?_⟩
  rintro ⟨impossible, _⟩
  cases impossible

def put (step : Transition Pty Event (Result Reply)) : List UInt8 :=
  match step.event with
  | .output buf => step.before.termios.postprocess buf
  | _ => []

/-- What a step delivers to the control terminal, without the type byte. -/
def delivered (step : Transition Pty Event (Result Reply)) : List UInt8 :=
  match step.event, step.output with
  | .controlRead _ _, some (.ok (.bytes data)) => data.drop 1
  | _, _ => []

/-- What is put out but not read. -/
def Pty.unread (this : Pty) : List UInt8 := this.miso.flatMap (·.drop 1)

/-- A read takes bytes, or at least one of two bytes gets on with the queue. -/
def Pty.Advances (this : Pty) (again : Bool) (size : Nat) : Prop :=
  ∃ data, (this.controlRead again size).2 = .ok (.bytes data) ∧
    this.unread = data.drop 1 ++ (this.controlRead again size).1.unread ∧
    (data.drop 1 ≠ [] ∨ (this.controlRead again 2).1.miso.flatten.length < this.miso.flatten.length)

/-- Outputs, and reads that have room for the type byte of a packet. -/
def Roomy (this : Pty) : Event → Prop
  | .output _ => True
  | .controlRead _ size => 0 < size ∨ this.miso = []
  | _ => False

instance : DecidableRel Roomy
  | _, .output _ => inferInstanceAs (Decidable True)
  | this, .controlRead _ size => inferInstanceAs (Decidable (0 < size ∨ this.miso = []))
  | _, .controlWrite _ | _, .subRead _ _ | _, .timeout _ => inferInstanceAs (Decidable False)

theorem Pty.controlRead_advances (packets : [] ∉ this.miso) (some : this.miso ≠ []) {again size}
    (positive : 0 < size) :
    this.Advances again size ∧ [] ∉ (this.controlRead again size).1.miso := by
  obtain ⟨packet, rest, queue⟩ := exists_cons_of_ne_nil some
  rw [queue, mem_cons, not_or] at packets
  cases packet with
  | nil => exact absurd rfl packets.1
  | cons kind data =>
    obtain ⟨more, rfl⟩ := Nat.exists_eq_add_one.mpr positive
    have cut : ∀ room, min (room + 1) (data.length + 1) = min room data.length + 1 := by omega
    simp only [Pty.Advances, Pty.unread, Pty.controlRead, queue, length_cons, cut, take_succ_cons,
      drop_succ_cons]
    refine ⟨⟨_, rfl, ?_, .inr ?_⟩, ?_⟩
    · split
      · simp [← append_assoc]
      next long => simp [take_of_length_le (Nat.le_of_lt_succ (not_lt.mp long))]
    · split <;> simp only [nil_append, cons_append, flatten_cons, length_append, length_cons,
        length_drop, take_zero] <;> omega
    · split
      · simpa using packets.2
      · exact packets.2

/-- While no read lacks the room for the type byte, what was delivered is the first part of
what was put out, and every read gets on. -/
theorem output_delivered (run : (terminal termios).Run Roomy history this) :
    history.flatMap delivered <+: history.flatMap put ∧
      ∀ again size, 0 < size → this.miso ≠ [] → this.Advances again size := by
  have both : [] ∉ this.miso ∧ history.flatMap delivered ++ this.unread = history.flatMap put := by
    induction run with
    | start => exact ⟨by simp [terminal], rfl⟩
    | @step history this event output after _ roomy stepped ih =>
      obtain ⟨packets, bytes⟩ := ih
      rw [flatMap_append, flatMap_append, flatMap_singleton, flatMap_singleton, append_assoc]
      cases event with
      | output buf =>
        cases stepped
        refine ⟨by simp [Pty.output, packets], ?_⟩
        rw [← bytes]
        simp [delivered, put, Pty.unread, Pty.output]
      | controlRead again size =>
        obtain rfl : (this.controlRead again size).1 = after :=
          congrArg Prod.fst (Option.some.inj stepped)
        obtain rfl : some (this.controlRead again size).2 = output :=
          congrArg Prod.snd (Option.some.inj stepped)
        by_cases none : this.miso = []
        · unfold Pty.controlRead
          split
          · exact ⟨packets, by simpa [delivered, put] using bytes⟩
          next full => cases none.symm.trans full
        · obtain ⟨⟨data, replied, taken, _⟩, kept⟩ := Pty.controlRead_advances packets none
            (roomy.resolve_right none)
          refine ⟨kept, ?_⟩
          rw [← bytes, taken, delivered, replied]
          simp [put]
      | controlWrite | subRead | timeout => exact roomy.elim
  refine ⟨⟨this.unread, both.2⟩, ?_⟩
  intro again size positive some
  exact (Pty.controlRead_advances both.1 some positive).1

def shortReads : List Event := [.output [0x61, 0x62], .controlRead true 1, .controlRead true 2]

theorem output_delivered_short : ∃ history this, (terminal rawTermios).Run Roomy history this ∧
      history.flatMap put = [0x61, 0x62] ∧ history.flatMap delivered <+: history.flatMap put :=
  ⟨_, _, (terminal rawTermios).run_replay Roomy shortReads rfl, rfl,
    (output_delivered ((terminal rawTermios).run_replay Roomy shortReads rfl)).1⟩

/-- A read of no bytes doubles the type byte, and the second one is delivered. -/
theorem empty_read_delivers :
    ∃ history this, (terminal rawTermios).Run (fun _ _ => True) history this ∧
      history.flatMap put = [0x61] ∧ history.flatMap delivered = [0, 0x61] ∧
      ¬ history.flatMap delivered <+: history.flatMap put := by
  refine ⟨_, _, (terminal rawTermios).run_replay _
    [.output [0x61], .controlRead true 0, .controlRead true 3] rfl, rfl, rfl, ?_⟩
  rintro ⟨_, impossible⟩
  cases impossible

end EosBase.Ptyd
