import EosBase.Procmgr.Permission

/-!
# Queued real-time signals

Signals 33 to 64 are queued: `rtqs` holds a queue of arguments for each of them,
and the upper half of the pending word a bit.  The vector of queues grows when
it is needed, so a missing queue is an empty one.
-/

namespace EosBase.Procmgr

open List Option Process KillMode ProcKillTarget BitVec

def Process.queue (process : Process) (index : Nat) : List RtSigInfo :=
  process.rtqs.getD index []

def Process.isPending (process : Process) (bit : Nat) : Bool :=
  process.sigPctl.any fun pctl => pctl.pending.getLsbD bit

def Process.pendingBit (process : Process) (index : Nat) : Bool :=
  process.isPending (32 + index)

/-- No queue is too long, and a signal is pending exactly while something is
queued for it. -/
structure Process.ExactQueues (process : Process) : Prop where
  bounded : ∀ index, (process.queue index).length ≤ 32
  pending : ∀ index < 32, process.pendingBit index = true ↔ process.queue index ≠ []

/-- The argument that a process takes when it is sent a signal. -/
def KillMode.accepted (mode : KillMode) (caller target : Process) (signal : Nat) :
    Option RtSigInfo :=
  match mode with
  | .idempotent => none
  | .queued info =>
    if (caller.euid = 0 ∨ caller.SharesUser target) ∧ 33 ≤ signal ∧ signal ≤ 64 ∧
        target.status.isTerminating = false ∧
        (target.sigPctl.any fun pctl => !pctl.signalWillIgn signal false) ∧
        (target.queue (signal - 33)).length < 32 then
      some info
    else
      none

structure Process.Received (info? : Option RtSigInfo) (index : Nat)
    (before after : Process) : Prop where
  queue : ∀ other, after.queue other =
    before.queue other ++ if other = index then info?.toList else []
  pending : ∀ other < 32, after.pendingBit other =
    (before.pendingBit other || (decide (other = index) && info?.isSome))
  ppid : after.ppid = before.ppid
  pgid : after.pgid = before.pgid
  ruid : after.ruid = before.ruid
  euid : after.euid = before.euid
  terminating : after.status.isTerminating = before.status.isTerminating
  ignores : after.sigPctl.map SigProcControl.signalWillIgn =
    before.sigPctl.map SigProcControl.signalWillIgn

variable {caller second first third : Process} {pctl : SigProcControl} {index other : Nat}

namespace Process.Received

theorem nothing (touched : first.Touched second)
    (queue : ∀ other, second.queue other = first.queue other)
    (pending : ∀ other < 32, second.pendingBit other = first.pendingBit other)
    (ignores : second.sigPctl.map SigProcControl.signalWillIgn =
      first.sigPctl.map SigProcControl.signalWillIgn) : first.Received none index second := by
  refine ⟨?_, ?_, touched.kin.ppid, touched.kin.pgid, touched.creds.ruid, touched.creds.euid,
    ?_, ignores⟩
  · intro other
    simp [queue other]
  · intro other small
    simp [pending other small]
  · rcases touched.status with same | ⟨liveBefore, liveAfter⟩
    · rw [same]
    · rw [liveBefore, liveAfter]

theorem refl (process : Process) : process.Received none index process :=
  nothing (.refl _) (fun _ => rfl) (fun _ _ => rfl) rfl

theorem page {page} (touched : first.Touched second)
    (queue : ∀ other, second.queue other = first.queue other) (mapped : first.sigPctl = some pctl)
    (replaced : second.sigPctl = some page) (ignores : page.signalWillIgn = pctl.signalWillIgn)
    (pending : ∀ other < 32,
      page.pending.getLsbD (32 + other) = pctl.pending.getLsbD (32 + other)) :
    first.Received none index second := by
  refine nothing touched queue ?_ ?_
  · intro other small
    simp only [pendingBit, isPending, mapped, replaced, any_some, pending other small]
  · simp only [mapped, replaced, map_some, ignores]

theorem trans {info? earlier?} (earlier : first.Received earlier? index second)
    (later : second.Received info? index third) (once : earlier? = none ∨ info? = none) :
    first.Received (earlier?.or info?) index third := by
  refine ⟨?_, ?_, later.ppid.trans earlier.ppid, later.pgid.trans earlier.pgid,
    later.ruid.trans earlier.ruid, later.euid.trans earlier.euid,
    later.terminating.trans earlier.terminating, later.ignores.trans earlier.ignores⟩
  · intro other
    rw [later.queue, earlier.queue]
    rcases once with rfl | rfl <;> simp
  · intro other small
    rw [later.pending other small, earlier.pending other small]
    rcases once with rfl | rfl <;> simp

theorem trans_none {info?} (earlier : first.Received info? index second)
    (later : second.Received none index third) : first.Received info? index third := by
  simpa using earlier.trans later (.inr rfl)

theorem recorded (process : Process) (childPid pgid : ProcessId) (status : WaitpidStatus) :
    process.Received none index (process.recorded childPid pgid status) :=
  ⟨(refl process).queue, (refl process).pending, rfl, rfl, rfl, rfl, rfl, rfl⟩

theorem reindex (received : first.Received none index second) :
    first.Received none other second := by
  refine ⟨?_, ?_, received.ppid, received.pgid, received.ruid, received.euid,
    received.terminating, received.ignores⟩
  · intro position
    simpa using received.queue position
  · intro position small
    simpa using received.pending position small

theorem accepted (received : first.Received none index second) (mode : KillMode)
    {callerNow} (euid : callerNow.euid = caller.euid)
    (ruid : callerNow.ruid = caller.ruid) (signal : Nat) :
    mode.accepted callerNow second signal = mode.accepted caller first signal := by
  have ignores : (second.sigPctl.any fun pctl => !pctl.signalWillIgn signal false) =
      first.sigPctl.any fun pctl => !pctl.signalWillIgn signal false := by
    have mapped := congrArg (Option.any fun ignored => !ignored signal false) received.ignores
    simpa only [Option.any_map, Function.comp_def] using mapped
  cases mode with
  | idempotent => rfl
  | queued info =>
    refine if_congr ?_ rfl rfl
    simp only [SharesUser, euid, ruid, received.ruid, received.terminating, ignores,
      received.queue, toList_none, ite_self, append_nil]

theorem exactQueues {info?} (received : first.Received info? index second)
    (exact : first.ExactQueues)
    (room : info?.isSome = true → (first.queue index).length < 32) : second.ExactQueues := by
  constructor
  · intro other
    rw [received.queue]
    have bound := exact.bounded other
    split
    next same =>
      subst same
      cases info? with
      | none => simpa using bound
      | some info =>
        have less := room rfl
        simp only [toList_some, length_append, length_singleton]
        omega
    · simpa using bound
  · intro other small
    rw [received.pending other small, received.queue]
    have pending := exact.pending other small
    by_cases same : other = index
    · cases info? with
      | none => simpa [same] using (same ▸ pending)
      | some info => simp [same]
    · simpa [same] using pending

end Process.Received

/-- A process as a failed call leaves it.  Where a process was stopped or
continued and its parent was gone, SIGCONT may differ. -/
structure Process.Unmoved (orphan : Prop) (before after : Process) : Prop where
  queue : ∀ index, after.queue index = before.queue index
  pending : ∀ bit, after.isPending bit = before.isPending bit ∨ (orphan ∧ bit = sigcont - 1)

namespace Process.Unmoved

variable {orphan : Prop}

theorem refl (process : Process) : process.Unmoved orphan process :=
  ⟨fun _ => rfl, fun _ => .inl rfl⟩

theorem trans (earlier : first.Unmoved orphan second) (later : second.Unmoved orphan third) :
    first.Unmoved orphan third := by
  refine ⟨fun index => (later.queue index).trans (earlier.queue index), ?_⟩
  intro bit
  rcases later.pending bit with same | excused
  · rw [same]
    exact earlier.pending bit
  · exact .inr excused

theorem mono {wider} (unmoved : first.Unmoved orphan second) (implied : orphan → wider) :
    first.Unmoved wider second :=
  ⟨unmoved.queue, fun bit => (unmoved.pending bit).imp_right fun excused =>
    ⟨implied excused.1, excused.2⟩⟩

end Process.Unmoved

variable {process : Process} {mode : KillMode} {signal : Nat}

namespace Process

theorem getD_grownRtqs (rtidx index : Nat) :
    (process.grownRtqs rtidx).getD index [] = process.queue index := by
  unfold grownRtqs queue
  split
  next short =>
    by_cases inside : index < process.rtqs.length
    · rw [getD_append _ _ _ _ inside]
    · rw [getD_append_right _ _ _ _ (by omega), getD_eq_default process.rtqs _ (by omega),
        getD_eq_getElem?_getD, List.getElem?_replicate]
      split <;> rfl
  · rfl

theorem lt_length_grownRtqs {rtidx} : rtidx < (process.grownRtqs rtidx).length := by
  unfold grownRtqs
  split
  · rw [length_append, length_replicate]
    omega
  · omega

theorem getD_set {Value : Type} {values : List Value} {value default}
    (inside : index < values.length) : (values.set index value).getD other default =
      if other = index then value else values.getD other default := by
  rw [getD_eq_getElem?_getD, List.getElem?_set]
  split
  next same => simp [same]
  next different => rw [if_neg (Ne.symm different), getD_eq_getElem?_getD]

theorem received_push {sig} (info : RtSigInfo) (mapped : process.sigPctl = some pctl)
    (low : 33 ≤ sig) (high : sig ≤ 64) : process.Received (some info) (sig - 33) { process with
        rtqs := (process.grownRtqs (sig - 33)).set (sig - 33)
          ((process.grownRtqs (sig - 33)).getD (sig - 33) [] ++ [info])
        sigPctl := some (pctl.raise sig) } := by
  refine ⟨?_, ?_, rfl, rfl, rfl, rfl, rfl, ?_⟩
  · intro other
    rw [queue, getD_set lt_length_grownRtqs]
    split
    next same =>
      subst same
      rw [getD_grownRtqs]
      rfl
    · rw [getD_grownRtqs, append_nil]
  · intro other small
    have same : 32 + other = sig - 1 ∧ 32 + other < 64 ↔ other = sig - 33 := by omega
    simp only [pendingBit, isPending, mapped, any_some, SigProcControl.getLsbD_raise, same,
      isSome_some, Bool.and_true]
  · simp only [mapped, map_some]
    rfl

end Process

theorem SigProcControl.getLsbD_lower {sig bit} (other : bit ≠ sig - 1) :
    (pctl.lower sig).pending.getLsbD bit = pctl.pending.getLsbD bit := by
  simp only [lower, getLsbD_and, getLsbD_not, getLsbD_sigBit]
  by_cases small : bit < 64
  · simp [other, small]
  · simp [getLsbD_of_ge _ _ (Nat.le_of_not_lt small)]

theorem KillMode.accepted_eq_none {target}
    (failed : ¬ ((caller.euid = 0 ∨ caller.SharesUser target) ∧ 33 ≤ signal ∧ signal ≤ 64 ∧
      target.status.isTerminating = false ∧
      (target.sigPctl.any fun pctl => !pctl.signalWillIgn signal false) ∧
      (target.queue (signal - 33)).length < 32)) : mode.accepted caller target signal = none := by
  cases mode with
  | idempotent => rfl
  | queued info => exact if_neg failed

variable {targetPid other pid : ProcessId} {isSelf killedSelf stopOrContinue : Bool}
  {before : Process} {scheme : ProcScheme} {kernel : Kernel} {targetProc : Process}
  {tried : Attempt} {callerPid : ProcessId} {awoken : List VirtualId}

namespace ProcScheme

section

variable (attempted : Attempted kernel callerPid caller (.proc pid) targetProc signal isSelf
  killedSelf mode stopOrContinue tried)

include attempted

theorem Attempted.received (valid : signal ≤ 64)
    (direct : stopOrContinue = false ∨ mode = .idempotent) :
    targetProc.Received (mode.accepted caller targetProc signal) (signal - 33) tried.target ∧
      ((mode.accepted caller targetProc signal).isSome = true → tried.result = .succeeded) := by
  have touched := attempted.touched
  -- In all branches but one the argument is not taken.
  have untaken : mode.accepted caller targetProc signal = none →
      targetProc.Received none (signal - 33) tried.target →
      targetProc.Received (mode.accepted caller targetProc signal) (signal - 33)
        tried.target ∧ ((mode.accepted caller targetProc signal).isSome = true →
          tried.result = .succeeded) := by
    intro refused received
    rw [refused]
    exact ⟨received, by simp⟩
  have low : signal < 33 → mode.accepted caller targetProc signal = none :=
    fun small => accepted_eq_none fun checks => by omega
  cases attempted with
  | refused refused =>
    refine untaken (accepted_eq_none ?_) (.refl _)
    rintro ⟨root | same | same, _⟩
    · exact refused.1 root
    · exact refused.2.1 same.symm
    · exact refused.2.2 same.symm
  | probed zero => exact untaken (low (by omega)) (.refl _)
  | terminating terminating =>
    refine untaken (accepted_eq_none ?_) (.refl _)
    rintro ⟨_, _, _, live, _⟩
    rw [live] at terminating
    cases terminating
  | unmapped unmapped =>
    refine untaken (accepted_eq_none ?_) (.refl _)
    rintro ⟨_, _, _, _, mapped, _⟩
    simp [unmapped] at mapped
  | continued _ mapped continues =>
    refine untaken (low (by rw [continues]; decide)) ?_
    refine .page touched (fun _ => rfl) mapped rfl ?_ ?_
    · split <;> rfl
    · intro other small
      split
      · rfl
      · rw [SigProcControl.getLsbD_raise]
        simp [show 32 + other ≠ sigcont - 1 by simp only [sigcont]; omega]
  | spared stops => exact untaken (low (stopping_ne stops).1) (.refl _)
  | @stopped pctl _ _ mapped stops =>
    refine untaken (low (stopping_ne stops).1) (.page touched (fun _ => rfl) mapped rfl rfl ?_)
    intro other _
    exact SigProcControl.getLsbD_lower (by simp only [sigcont]; omega)
  | killed kills => exact untaken (low (by rw [kills]; decide)) (.refl _)
  | ignored mapped ignored =>
    rcases direct with direct | idempotent
    · refine untaken (accepted_eq_none ?_) (.refl _)
      rintro ⟨_, _, _, _, heeds, _⟩
      rw [mapped, any_some] at heeds
      rw [direct] at ignored
      rw [ignored] at heeds
      cases heeds
    · rw [idempotent] at untaken ⊢
      exact untaken rfl (.refl _)
  | thread impossible => cases impossible
  | proc _ permitted live mapped heeds =>
    generalize done : deliverProc _ _ _ _ _ _ _ = tried at touched untaken ⊢
    cases mode with
    | idempotent =>
      simp only [deliverProc] at done
      split at done
      · subst done
        exact untaken rfl (.refl _)
      split at done
      · subst done
        exact untaken rfl (.refl _)
      next group =>
      subst done
      refine untaken rfl (.page touched (fun _ => rfl) mapped rfl rfl ?_)
      intro index _
      rw [SigProcControl.getLsbD_raise]
      simp [show 32 + index ≠ signal - 1 by omega]
    | queued info =>
      have direct : stopOrContinue = false := by
        rcases direct with direct | impossible
        · exact direct
        · cases impossible
      simp only [deliverProc] at done
      split at done
      next group =>
        subst done
        refine untaken (accepted_eq_none ?_) (.refl _)
        omega
      next group =>
      have index : (signal - 1) % 32 = signal - 33 := by omega
      rw [index, getD_grownRtqs] at done
      split at done
      next full =>
        subst done
        refine untaken (accepted_eq_none ?_) ?_
        · omega
        · exact .nothing touched (getD_grownRtqs _) (fun _ _ => rfl) rfl
      next room =>
      have taken : (queued info).accepted caller targetProc signal = some info := by
        refine if_pos ⟨?_, by omega, valid, live, ?_, by omega⟩
        · by_contra refused
          apply permitted
          refine ⟨fun root => refused (.inl root), fun same => refused (.inr (.inl same.symm)),
            fun same => refused (.inr (.inr same.symm))⟩
        · rw [mapped, any_some, ← direct]
          simpa using heeds
      subst done
      rw [taken]
      refine ⟨?_, fun _ => rfl⟩
      have pushed := received_push info mapped (show 33 ≤ signal by omega) valid
      rw [getD_grownRtqs] at pushed
      exact pushed

/-- An attempt raises at most its own signal, and SIGCONT may differ when the target
was stopped or continued. -/
theorem Attempted.isPending (bit : Nat) : tried.target.isPending bit = targetProc.isPending bit ∨
      (tried.result.notice? ≠ none ∧ bit = sigcont - 1) ∨
      (tried.result = .succeeded ∧ bit = signal - 1 ∧ tried.target.isPending bit = true) := by
  cases attempted with
  | refused | probed | terminating | unmapped | spared | killed | ignored => exact .inl rfl
  | continued _ mapped =>
    by_cases own : bit = sigcont - 1
    · exact .inr (.inl ⟨by simp [SendResult.notice?], own⟩)
    apply Or.inl
    simp only [isPending, unstop, mapped, any_some]
    split
    · rfl
    · rw [SigProcControl.getLsbD_raise]
      simp [own]
  | @stopped pctl _ _ mapped =>
    by_cases own : bit = sigcont - 1
    · exact .inr (.inl ⟨by simp [SendResult.notice?], own⟩)
    · apply Or.inl
      simp only [isPending, stop, mapped, any_some]
      exact SigProcControl.getLsbD_lower own
  | thread impossible => cases impossible
  | @proc _ pctl _ _ _ mapped =>
    have raised (page : SigProcControl) (same : page.pending = pctl.pending) :
        (page.raise signal).pending.getLsbD bit = targetProc.isPending bit ∨
          bit = signal - 1 ∧ (page.raise signal).pending.getLsbD bit = true := by
      simp only [isPending, mapped, any_some, SigProcControl.getLsbD_raise, same]
      by_cases own : bit = signal - 1 ∧ bit < 64
      · exact .inr ⟨own.1, by rw [decide_eq_true own, Bool.or_true]⟩
      · exact .inl (by simp [own])
    cases mode with
    | idempotent | queued =>
      simp only [deliverProc]
      split
      · exact .inl rfl
      split
      · exact .inl rfl
      · exact (raised _ rfl).imp_right fun own => .inr ⟨rfl, own⟩

end

def accepted (scheme : ProcScheme) (callerPid : ProcessId) (mode : KillMode) (target : Process)
    (signal : Nat) : Option RtSigInfo :=
  (scheme.get? callerPid).bind fun caller => mode.accepted caller target signal

structure Delivers (scheme : ProcScheme) (callerPid pid : ProcessId) (mode : KillMode)
    (signal : Nat) (sent : Sent) (other : ProcessId) (before after : Process) : Prop where
  found : sent.scheme.get? other = some after
  received : before.Received
    (if other = pid then scheme.accepted callerPid mode before signal else none)
    (signal - 33) after
  unmoved : ∀ errno, sent.result = .error errno →
    before.Unmoved (scheme.get? before.ppid = none) after

theorem sendSigTo_delivers (callerPid pid : ProcessId) (signal : Nat)
    (direct : stopOrContinue = false ∨ mode = .idempotent)
    (found : scheme.get? other = some before) :
    ∃ after, Delivers scheme callerPid pid mode signal
      (scheme.sendSigTo kernel callerPid (.proc pid) signal killedSelf mode stopOrContinue
        awoken) other before after := by
  have unchanged : (other = pid → scheme.accepted callerPid mode before signal = none) →
      before.Received (if other = pid then scheme.accepted callerPid mode before signal
        else none) (signal - 33) before := by
    intro refused
    split
    next same =>
      rw [refused same]
      exact .refl _
    · exact .refl _
  rcases scheme.sendSigTo_cases kernel callerPid (.proc pid) signal killedSelf mode stopOrContinue
    awoken with ⟨_, failed, reason⟩ |
    ⟨targetProc, caller, tried, valid, targetFound, callerFound, -, attempted, result⟩
  · rw [failed]
    refine ⟨before, found, unchanged ?_, fun _ _ => .refl _⟩
    rintro rfl
    rw [accepted, bind_eq_none_iff]
    intro caller callerFound
    rcases reason with large | missing | missing
    · exact accepted_eq_none fun checks => by omega
    · cases missing.symm.trans found
    · cases missing.symm.trans callerFound
  rw [result]
  have accepts : scheme.accepted callerPid mode targetProc signal =
      mode.accepted caller targetProc signal := by
    rw [accepted, callerFound]
    rfl
  obtain ⟨received, succeeds⟩ := attempted.received valid direct
  -- First the target alone, before a status is recorded at its parent.
  have middle : ∃ after, (scheme.set pid tried.target).get? other = some after ∧
      before.Received (if other = pid then scheme.accepted callerPid mode before signal
        else none) (signal - 33) after ∧
      (tried.result ≠ .succeeded ∧ (∀ notice ∈ tried.result.notice?,
          (scheme.set pid tried.target).get? notice.2.1 = none) →
        before.Unmoved (scheme.get? before.ppid = none) after) := by
    by_cases same : other = pid
    · subst same
      cases targetFound.symm.trans found
      refine ⟨tried.target, by simp, by rwa [if_pos rfl, accepts], ?_⟩
      rintro ⟨unsuccessful, orphaned⟩
      constructor
      · intro index
        have queue := received.queue index
        cases accepted : mode.accepted caller before signal with
        | none => simpa [accepted] using queue
        | some info => exact (unsuccessful (succeeds (by rw [accepted]; rfl))).elim
      · intro bit
        rcases attempted.isPending bit with same | ⟨told, own⟩ | ⟨succeeded, -⟩
        · exact .inl same
        swap
        · exact absurd succeeded unsuccessful
        refine .inr ⟨?_, own⟩
        obtain ⟨notice, noticed⟩ := ne_none_iff_exists'.mp told
        have missing := orphaned notice noticed
        rw [(attempted.announces.notice notice noticed).1, get?_set] at missing
        split at missing
        · cases missing
        · exact missing
    · refine ⟨before, by simpa [same] using found, by rw [if_neg same]; exact .refl _,
        fun _ => .refl _⟩
  obtain ⟨after, afterFound, afterReceived, unmoved⟩ := middle
  rcases (scheme.set pid tried.target).conclude_cases awoken pid tried.killedSelf with
    ⟨sameScheme, -, -, fails⟩ |
    ⟨status, ppid, pgid, parent, -, parentFound, recorded, -, -, succeeded⟩
  · refine ⟨after, ?_, afterReceived, fun errno failed => unmoved (fails errno failed)⟩
    rw [← sameScheme] at afterFound
    exact afterFound
  · have ended : ∀ errno, ((scheme.set pid tried.target).conclude awoken pid tried.result
        tried.killedSelf).result ≠ .error errno := by
      intro errno failed
      cases succeeded.symm.trans failed
    by_cases same : other = ppid
    · subst same
      cases afterFound.symm.trans parentFound
      refine ⟨after.recorded pid pgid status, ?_,
        afterReceived.trans_none (.recorded after pid pgid status),
        fun errno failed => absurd failed (ended errno)⟩
      exact (congrArg (·.get? other) recorded).trans get?_set_self
    · refine ⟨after, ?_, afterReceived, fun errno failed => absurd failed (ended errno)⟩
      rw [← afterFound]
      exact (congrArg (·.get? other) recorded).trans (by rw [get?_set, if_neg same])

theorem sendSigTo_parent {target ppid}
    (owed : (scheme.sendSigTo kernel callerPid target signal killedSelf mode stopOrContinue
      awoken).parent = some ppid) :
    (scheme.sendSigTo kernel callerPid target signal killedSelf mode stopOrContinue
      awoken).result = .ok () := by
  rcases scheme.sendSigTo_cases kernel callerPid target signal killedSelf mode stopOrContinue
    awoken with ⟨_, failed, -⟩ | ⟨_, _, _, -, -, -, -, -, result⟩
  · rw [failed] at owed
    cases owed
  rw [result] at owed ⊢
  rcases conclude_cases _ _ _ _ with ⟨_, _, noParent, -⟩ | ⟨_, _, _, _, _, _, _, _, _, succeeded⟩
  · cases noParent.symm.trans owed
  · exact succeeded

/-- `on_send_sig` as a whole: the SIGCHLD to a parent takes no argument. -/
theorem onSendSig_delivers (found : scheme.get? other = some before) :
    ∃ after, Delivers scheme callerPid pid mode signal
      (scheme.onSendSig kernel callerPid (.proc pid) signal killedSelf mode false awoken)
      other before after := by
  obtain ⟨after, delivered⟩ := sendSigTo_delivers callerPid pid signal
    (show false = false ∨ mode = .idempotent from .inl rfl) found
  unfold onSendSig
  dsimp only
  split
  · exact ⟨after, delivered⟩
  next ppid owed =>
  obtain ⟨last, told⟩ := sendSigTo_delivers initPid ppid sigchld
    (show true = false ∨ idempotent = .idempotent from .inr rfl)
    delivered.found
  have nothing : after.Received none (signal - 33) last := by
    have received := told.received
    rw [accepted] at received
    simp only [KillMode.accepted, bind_fun_none, ite_self] at received
    exact received.reindex
  refine ⟨last, told.found, delivered.received.trans_none nothing, ?_⟩
  intro errno failed
  rw [sendSigTo_parent owed] at failed
  cases failed

theorem onSendSig_absent {target} (missing : scheme.get? other = none) :
    (scheme.onSendSig kernel callerPid target signal killedSelf mode stopOrContinue
      awoken).scheme.get? other = none := by
  have edits : Edits .free signalKinds (scheme, awoken) _ :=
    scheme.onSendSig_edits kernel callerPid target signal killedSelf mode stopOrContinue awoken
  exact edits.absent (by decide) (.inr (by decide)) missing

/-- Where the loop of `on_kill` stands: the processes of the group that were met
have taken their argument, and if nothing has succeeded then nothing has moved. -/
structure KillProgress (scheme : ProcScheme) (callerPid : ProcessId)
    (matchGrp : Option ProcessId) (mode : KillMode) (signal : Nat) (met : List ProcessId)
    (state : KillLoop) : Prop where
  absent : ∀ pid, scheme.get? pid = none → state.scheme.get? pid = none
  present : ∀ pid before, scheme.get? pid = some before →
    ∃ now, state.scheme.get? pid = some now ∧
      before.Received
        (if pid ∈ met ∧ matchGrp.all (fun grp => before.pgid == grp) then
          scheme.accepted callerPid mode before signal else none) (signal - 33) now ∧
      (state.numSucceeded = 0 → before.Unmoved (scheme.get? before.ppid = none) now)

variable {matchGrp : Option ProcessId} {met : List ProcessId} {state : KillLoop}

namespace KillProgress

section

variable (progress : KillProgress scheme callerPid matchGrp mode signal met state)

include progress

theorem accepted {now} (received : before.Received none index now) :
    state.scheme.accepted callerPid mode now signal =
      scheme.accepted callerPid mode before signal := by
  unfold ProcScheme.accepted
  cases found : scheme.get? callerPid with
  | none => rw [progress.absent callerPid found]; rfl
  | some caller =>
    obtain ⟨callerNow, nowFound, callerReceived, _⟩ := progress.present callerPid caller found
    rw [nowFound]
    exact received.accepted mode callerReceived.euid callerReceived.ruid signal

theorem pass (fresh : pid ∉ met) (unmatched : ∀ before, scheme.get? pid = some before →
      matchGrp.all (fun grp => before.pgid == grp) = false) :
    KillProgress scheme callerPid matchGrp mode signal (met ++ [pid]) state := by
  refine ⟨progress.absent, ?_⟩
  intro other before found
  obtain ⟨now, nowFound, received, unmoved⟩ := progress.present other before found
  refine ⟨now, nowFound, ?_, unmoved⟩
  by_cases same : other = pid
  · subst same
    rw [if_neg (by simp [unmatched before found])]
    rwa [if_neg (by simp [fresh])] at received
  · simpa [same] using received

theorem send (fresh : pid ∉ met) (processFound : state.scheme.get? pid = some process)
    (matched : matchGrp.all (fun grp => process.pgid == grp) = true) (kernel : Kernel) {next}
    (sent : next.scheme = (state.scheme.onSendSig kernel callerPid (.proc pid) signal
      state.killedSelf mode false state.awoken).scheme)
    (failure : next.numSucceeded = 0 → state.numSucceeded = 0 ∧
      ∃ errno, (state.scheme.onSendSig kernel callerPid (.proc pid) signal state.killedSelf mode
        false state.awoken).result = .error errno) :
    KillProgress scheme callerPid matchGrp mode signal (met ++ [pid]) next := by
  constructor
  · intro other missing
    rw [sent]
    exact onSendSig_absent (progress.absent other missing) ..
  intro other before found
  obtain ⟨middle, middleFound, earlier, unmovedEarlier⟩ := progress.present other before found
  obtain ⟨now, delivered⟩ := onSendSig_delivers middleFound
  refine ⟨now, sent ▸ delivered.found, ?_, ?_⟩
  · have received := delivered.received
    by_cases same : other = pid
    · subst same
      rw [if_neg (by simp [fresh])] at earlier
      rw [if_pos rfl, progress.accepted earlier] at received
      cases middleFound.symm.trans processFound
      rw [earlier.pgid] at matched
      rw [if_pos ⟨by simp, matched⟩]
      exact earlier.trans received (.inl rfl)
    · rw [if_neg same] at received
      simpa [same] using earlier.trans_none received
  · intro noneSucceeded
    obtain ⟨noneEarlier, errno, failed⟩ := failure noneSucceeded
    have orphan : state.scheme.get? middle.ppid = none → scheme.get? before.ppid = none := by
      intro missing
      cases parentFound : scheme.get? before.ppid with
      | none => rfl
      | some parent =>
        obtain ⟨parentNow, nowFound, _⟩ := progress.present _ parent parentFound
        rw [← earlier.ppid] at nowFound
        cases missing.symm.trans nowFound
    exact (unmovedEarlier noneEarlier).trans ((delivered.unmoved errno failed).mono orphan)

theorem step (fresh : pid ∉ met) (kernel : Kernel) :
    KillProgress scheme callerPid matchGrp mode signal (met ++ [pid])
      (killStep kernel callerPid matchGrp signal mode state pid) := by
  unfold killStep
  split
  next missing =>
    apply progress.pass fresh
    intro before found
    obtain ⟨now, nowFound, _⟩ := progress.present pid before found
    cases missing.symm.trans nowFound
  next process processFound =>
  split
  next unmatched =>
    apply progress.pass fresh
    intro before found
    obtain ⟨now, nowFound, received, _⟩ := progress.present pid before found
    cases processFound.symm.trans nowFound
    obtain ⟨grp, wanted, different⟩ := Option.any_eq_true .. |>.mp unmatched
    rw [mem_def.mp wanted, all_some]
    simpa [← received.pgid] using different
  next matched =>
  have group : matchGrp.all (fun grp => process.pgid == grp) = true := by
    cases matchGrp with
    | none => rfl
    | some grp => simpa using matched
  dsimp only
  split
  · refine progress.send fresh processFound group kernel rfl ?_
    intro impossible
    cases impossible
  next errno failed =>
  refine progress.send fresh processFound group kernel rfl ?_
  intro noneSucceeded
  exact ⟨noneSucceeded, errno, failed⟩

end

theorem loop (kernel : Kernel) (awoken : List VirtualId) {pids}
    (distinct : pids.Nodup) : KillProgress scheme callerPid matchGrp mode signal pids
      (pids.foldl (killStep kernel callerPid matchGrp signal mode)
        ⟨scheme, awoken, false, none, 0, []⟩) := by
  induction pids using reverseRecOn with
  | nil => exact ⟨fun _ missing => missing, fun _ process found =>
      ⟨process, found, .refl _, fun _ => .refl _⟩⟩
  | append_singleton pids pid ih =>
    rw [← concat_eq_append, nodup_concat] at distinct
    rw [foldl_append]
    exact (ih distinct.2).step distinct.1 kernel

end KillProgress

def takes (scheme : ProcScheme) (callerPid : ProcessId) (target : ProcKillTarget) (mode : KillMode)
    (signal : Nat) (pid : ProcessId) (process : Process) : Option RtSigInfo :=
  (scheme.get? callerPid).bind fun caller =>
    if target.selects caller pid process then mode.accepted caller process signal else none

structure Kills (scheme : ProcScheme) (callerPid : ProcessId) (target : ProcKillTarget)
    (mode : KillMode) (signal : Nat) (killed : Killed) (pid : ProcessId)
    (before after : Process) : Prop where
  found : killed.scheme.get? pid = some after
  received : before.Received (scheme.takes callerPid target mode signal pid before)
    (signal - 33) after
  /-- ERESTART reports a success: the caller has signalled itself. -/
  unmoved : ∀ errno, killed.result = .error errno → errno ≠ .ERESTART →
    before.Unmoved (scheme.get? before.ppid = none) after

theorem killMany_kills {target} (admits : kernel.Admits scheme)
    (selects : ∀ caller pid process, scheme.get? callerPid = some caller →
      (target.selects caller pid process ↔ matchGrp.all (fun grp => process.pgid == grp) = true))
    (found : scheme.get? pid = some before) :
    ∃ after, Kills scheme callerPid target mode signal
      (scheme.killMany kernel callerPid matchGrp signal mode awoken) pid before after := by
  obtain ⟨after, afterFound, received, unmoved⟩ :=
    (KillProgress.loop kernel awoken admits.orderNodup).present pid before found
  refine ⟨after, afterFound, ?_, ?_⟩
  · have same : scheme.takes callerPid target mode signal pid before =
        if pid ∈ kernel.order ∧ matchGrp.all (fun grp => before.pgid == grp) then
          scheme.accepted callerPid mode before signal else none := by
      have met : pid ∈ kernel.order := admits.covers pid before found
      unfold takes ProcScheme.accepted
      cases callerFound : scheme.get? callerPid with
      | none => simp
      | some caller =>
        simp only [bind_some, selects caller pid before callerFound, met, true_and]
    rw [same]
    exact received
  · intro errno failed other
    apply unmoved
    simp only [killMany] at failed
    split at failed
    next none => exact none
    split at failed
    · cases failed
      exact (other rfl).elim
    · cases failed

theorem onKill_kills {target} (admits : kernel.Admits scheme)
    (found : scheme.get? pid = some before) :
    ∃ after, Kills scheme callerPid target mode signal
      (scheme.onKill kernel callerPid target signal mode awoken) pid before after := by
  cases target with
  | singleProc wanted =>
    obtain ⟨after, delivered⟩ := onSendSig_delivers found
    refine ⟨after, delivered.found, ?_, ?_⟩
    · have same : scheme.takes callerPid (.singleProc wanted) mode signal pid before =
          if pid = wanted then scheme.accepted callerPid mode before signal else none := by
        unfold takes ProcScheme.accepted
        cases scheme.get? callerPid with
        | none => simp
        | some caller => exact if_congr Iff.rfl rfl rfl
      rw [same]
      exact delivered.received
    · intro errno failed other
      simp only [onKill] at failed
      split at failed
      next error reported =>
        exact delivered.unmoved error reported
      split at failed
      · cases failed
        exact (other rfl).elim
      · cases failed
  | procGroup grp =>
    refine killMany_kills admits ?_ found
    simp [selects]
  | all =>
    refine killMany_kills admits ?_ found
    simp [selects]
  | thisGroup =>
    unfold onKill
    cases callerFound : scheme.get? callerPid with
    | none =>
      refine ⟨before, found, ?_, fun _ _ _ => .refl _⟩
      have nothing : scheme.takes callerPid .thisGroup mode signal pid before = none := by
        rw [takes, callerFound]
        rfl
      rw [nothing]
      exact .refl _
    | some caller =>
      refine killMany_kills admits ?_ found
      intro again other process againFound
      cases callerFound.symm.trans againFound
      simp [selects]

end ProcScheme

structure Process.Dequeued (index : Nat) (info : RtSigInfo) (before after : Process) : Prop where
  queue : before.queue index = info :: after.queue index
  others : ∀ other, other ≠ index → after.queue other = before.queue other
  pending : ∀ other < 32, after.pendingBit other =
    (before.pendingBit other && !(decide (other = index) && (after.queue index).isEmpty))

theorem Process.Dequeued.exactQueues {info after}
    (dequeued : before.Dequeued index info after) (exact : before.ExactQueues) :
    after.ExactQueues := by
  constructor
  · intro other
    have bound := exact.bounded other
    by_cases same : other = index
    · subst same
      rw [dequeued.queue, length_cons] at bound
      omega
    · rwa [dequeued.others other same]
  · intro other small
    rw [dequeued.pending other small]
    have pending := exact.pending other small
    by_cases same : other = index
    · subst same
      have marked : before.pendingBit other = true := pending.mpr (by simp [dequeued.queue])
      simp [marked]
    · rw [dequeued.others other same]
      simpa [same] using pending

/-- A failed `Sigdeq` changes nothing; another one takes the first argument. -/
theorem ProcScheme.onSigdeq_cases {payload} :
    (∃ errno, scheme.onSigdeq pid payload = (scheme, .error errno)) ∨
      ∃ index info before after, readU32 payload = some index ∧
        scheme.get? pid = some before ∧ before.Dequeued index info after ∧
        scheme.onSigdeq pid payload = (scheme.set pid after, .ok info) := by
  unfold onSigdeq
  split
  · exact .inl ⟨_, rfl⟩
  next index decoded =>
  split
  · exact .inl ⟨_, rfl⟩
  split
  · exact .inl ⟨_, rfl⟩
  next small =>
  split
  · exact .inl ⟨_, rfl⟩
  next process found =>
  split
  · exact .inl ⟨_, rfl⟩
  next pctl mapped =>
  split
  · exact .inl ⟨_, rfl⟩
  · exact .inl ⟨_, rfl⟩
  next front rest queued =>
  refine .inr ⟨index, front, process, _, decoded, found, ?_, rfl⟩
  have inside : index < process.rtqs.length := (List.getElem?_eq_some_iff.mp queued).1
  refine ⟨?_, ?_, ?_⟩
  · simp only [queue, getD_set inside, if_true]
    rw [getD_eq_getElem?_getD, queued]
    rfl
  · intro other different
    simp only [queue, getD_set inside, if_neg different]
  · intro other otherSmall
    have own : (1#64 <<< (32 + index)) = sigBit (33 + index) := by
      congr 1
      omega
    simp only [pendingBit, isPending, queue, getD_set inside, if_true, mapped, any_some]
    split
    next empty =>
      rw [own, getLsbD_and, getLsbD_not, getLsbD_sigBit]
      simp [empty, show 32 + other < 64 by omega]
    next nonempty => simp [nonempty]

end EosBase.Procmgr
