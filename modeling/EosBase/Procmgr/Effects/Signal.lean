import EosBase.Procmgr.Edits

/-!
# The edits of signals
-/

namespace EosBase.Procmgr

open SendResult List

variable {policy : Policy} {process : Process} {result : SendResult}

theorem Thread.ident_mapSigCtrl {thread : Thread} {f} :
    (thread.mapSigCtrl f).ident = thread.ident := rfl

namespace Process

theorem Touched.refl (process : Process) : process.Touched process := .edit rfl (.inl rfl)

/-- The target of `unstop` and of `stop` was running or stopped before. -/
theorem touched_unstop (pctl : SigProcControl)
    (live : process.status.isTerminating = false) : process.Touched (process.unstop pctl) :=
  .edit (by simp [Function.comp_def, Thread.ident_mapSigCtrl]) (.inr ⟨live, rfl⟩)

theorem touched_stop (kernel : Kernel) (sig : Nat) (pctl : SigProcControl)
    (live : process.status.isTerminating = false) :
    process.Touched (process.stop kernel sig pctl) := by
  refine .edit ?_ (.inr ⟨live, rfl⟩)
  simp only [map_map]
  apply map_congr_left
  intro thread _
  simp only [Function.comp_apply]
  split <;> rfl

def SendResult.isPlain : SendResult → Bool
  | .succeededSigchld _ _ _ => false
  | .succeededSigcont _ _ => false
  | _ => true

section

variable (process) (target : ThreadRef) (pctl : SigProcControl) (sender : SenderInfo) (sig : Nat)
  (mode : KillMode) (isSelf killedSelf : Bool)

theorem touched_deliverThread :
    process.Touched (process.deliverThread target sender sig isSelf killedSelf).target := by
  unfold deliverThread
  split
  · exact .refl process
  refine .edit ?_ (.inl rfl)
  simp only [map_map]
  apply map_congr_left
  intro thread _
  simp only [Function.comp_apply]
  split <;> rfl

theorem touched_deliverProc :
    process.Touched (process.deliverProc pctl sender sig mode isSelf killedSelf).target := by
  cases mode with
  | queued | idempotent =>
    simp only [deliverProc]
    split
    · exact .refl process
    split
    · exact .edit rfl (.inl rfl)
    · exact .edit rfl (.inl rfl)

theorem plain_deliverThread :
    (process.deliverThread target sender sig isSelf killedSelf).target.status =
        process.status ∧
      SendResult.isPlain
        (process.deliverThread target sender sig isSelf killedSelf).result = true := by
  unfold deliverThread
  split <;> exact ⟨rfl, rfl⟩

theorem plain_deliverProc :
    (process.deliverProc pctl sender sig mode isSelf killedSelf).target.status =
        process.status ∧
      SendResult.isPlain
        (process.deliverProc pctl sender sig mode isSelf killedSelf).result = true := by
  cases mode with
  | queued | idempotent =>
    simp only [deliverProc]
    split
    · exact ⟨rfl, rfl⟩
    · split <;> exact ⟨rfl, rfl⟩

end

end Process

def changedStatus (signal : Nat) : ProcessStatus :=
  if signal = sigcont then .possiblyRunnable else .stopped signal

def toldStatus (signal : Nat) : WaitpidStatus :=
  if signal = sigcont then .continued else .stopped signal

namespace SendResult

/-- What a result has to tell: the status, the parent and the group. -/
def notice? : SendResult → Option (WaitpidStatus × ProcessId × ProcessId)
  | .succeededSigchld origSignal ppid pgid => some (.stopped origSignal, ppid, pgid)
  | .succeededSigcont ppid pgid => some (.continued, ppid, pgid)
  | _ => none

theorem notice?_of_isPlain (plain : Process.SendResult.isPlain result = true) :
    result.notice? = none := by
  cases result with
  | succeededSigchld origSignal ppid pgid => cases plain
  | succeededSigcont ppid pgid => cases plain
  | _ => rfl

end SendResult

/-- The status of a target changes only in the way that its parent is told. -/
structure Attempt.Announces (signal : Nat) (target : Process) (tried : Attempt) : Prop where
  status : tried.target.status = target.status ∨ tried.target.status = changedStatus signal
  notice : ∀ notice ∈ tried.result.notice?,
    notice = (toldStatus signal, target.ppid, target.pgid) ∧
      tried.target.status = changedStatus signal

variable {tried : Attempt} {target : Process} {signal : Nat}

theorem Attempt.Announces.plain (status : tried.target.status = target.status)
    (plain : Process.SendResult.isPlain tried.result = true) : tried.Announces signal target := by
  refine ⟨.inl status, ?_⟩
  intro notice told
  rw [notice?_of_isPlain plain] at told
  cases told

namespace ProcScheme

section

variable (kernel : Kernel) (callerPid : ProcessId) (caller : Process) (target : KillTarget)
  (process : Process) (signal : Nat) (isSelf killedSelf : Bool) (mode : KillMode)
  (stopOrContinue : Bool)

inductive Attempted : Attempt → Prop where
  | refused : caller.euid ≠ 0 ∧ caller.euid ≠ process.ruid ∧ caller.ruid ≠ process.ruid →
      Attempted ⟨.lacksPermission, process, killedSelf, []⟩
  | probed : signal = 0 →
      Attempted ⟨.succeeded, process, killedSelf, []⟩
  | terminating : process.status.isTerminating = true →
      Attempted ⟨.succeeded, process, killedSelf, []⟩
  | unmapped : process.sigPctl = none →
      Attempted ⟨.invalid, process, killedSelf, []⟩
  | continued {pctl writes} : process.status.isTerminating = false →
      process.sigPctl = some pctl → signal = sigcont →
      Attempted ⟨.succeededSigcont process.ppid process.pgid, process.unstop pctl,
          killedSelf, writes⟩
  /-- The terminal stop signals spare orphaned process groups. -/
  | spared : signal = sigstop ∨ isConditionalStop signal = true →
      Attempted ⟨.succeeded, process, killedSelf, []⟩
  | stopped {pctl writes} : process.status.isTerminating = false →
      process.sigPctl = some pctl → signal = sigstop ∨ isConditionalStop signal = true →
      Attempted ⟨.succeededSigchld signal process.ppid process.pgid,
          process.stop kernel signal pctl, killedSelf, writes⟩
  | killed {writes} : signal = sigkill →
      Attempted ⟨.succeeded, process, killedSelf || isSelf, writes⟩
  | ignored {pctl} : process.sigPctl = some pctl →
      pctl.signalWillIgn signal stopOrContinue = true →
      Attempted ⟨.succeeded, process, killedSelf, []⟩
  | thread {thread} : target = .thread thread →
      Attempted (process.deliverThread thread ⟨callerPid, caller.ruid⟩ signal isSelf killedSelf)
  | proc {pid pctl} : target = .proc pid →
      ¬ (caller.euid ≠ 0 ∧ caller.euid ≠ process.ruid ∧ caller.ruid ≠ process.ruid) →
      process.status.isTerminating = false → process.sigPctl = some pctl →
      pctl.signalWillIgn signal stopOrContinue = false →
      Attempted (process.deliverProc pctl ⟨callerPid, caller.ruid⟩ signal mode isSelf killedSelf)

end

variable {targetPid callerPid : ProcessId} {stopOrContinue killedSelf : Bool} {mode : KillMode}
  {awoken : List VirtualId}

theorem attempted_attempt {scheme : ProcScheme} {kernel caller target targetProc} :
    Attempted kernel callerPid caller target targetProc signal (targetPid == callerPid)
      killedSelf mode stopOrContinue (scheme.attempt kernel callerPid caller target targetPid
        targetProc signal killedSelf mode stopOrContinue) := by
  unfold attempt
  split
  next refused => exact .refused refused
  next permitted =>
  split
  next zero => exact .probed zero
  split
  next terminating => exact .terminating terminating
  next live =>
  have live : targetProc.status.isTerminating = false := by simpa using live
  split
  next unmapped => exact .unmapped unmapped
  next pctl mapped =>
  split
  next continues => exact .continued live mapped continues.1
  split
  next stops =>
    have stops := stops.imp_right And.left
    split
    · exact .spared stops
    · exact .stopped live mapped stops
  split
  next kills => exact .killed kills
  split
  next ignored => exact .ignored mapped ignored
  next heeds =>
  split
  · exact .thread rfl
  · exact .proc rfl permitted live mapped (by simpa using heeds)

theorem stopping_ne (stops : signal = sigstop ∨ isConditionalStop signal = true) :
    signal < 33 ∧ signal ≠ sigcont ∧ signal ≠ sigchld := by
  rcases stops with rfl | conditional
  · decide
  · simp only [isConditionalStop, Bool.or_eq_true, beq_iff_eq] at conditional
    rcases conditional with (rfl | rfl) | rfl <;> decide

section

variable {kernel : Kernel} {caller : Process} {target : KillTarget} {isSelf : Bool}

variable (attempted : Attempted kernel callerPid caller target process signal isSelf killedSelf
  mode stopOrContinue tried)

include attempted

theorem Attempted.touched : process.Touched tried.target := by
  cases attempted with
  | refused | probed | terminating | unmapped | spared | killed | ignored => exact .refl _
  | continued live => exact process.touched_unstop _ live
  | stopped live => exact process.touched_stop kernel signal _ live
  | thread => exact process.touched_deliverThread _ _ _ _ _
  | proc => exact process.touched_deliverProc _ _ _ _ _ _

theorem Attempted.announces : tried.Announces signal process := by
  cases attempted with
  | refused | probed | terminating | unmapped | spared | killed | ignored => exact .plain rfl rfl
  | continued _ _ continues =>
    have continued : changedStatus signal = .possiblyRunnable := if_pos continues
    refine ⟨.inr continued.symm, ?_⟩
    rintro notice ⟨⟩
    exact ⟨by rw [toldStatus, if_pos continues], continued.symm⟩
  | stopped _ _ stops =>
    have different := (stopping_ne stops).2.1
    have stopped : changedStatus signal = .stopped signal := if_neg different
    refine ⟨.inr stopped.symm, ?_⟩
    rintro notice ⟨⟩
    exact ⟨by rw [toldStatus, if_neg different], stopped.symm⟩
  | thread =>
    obtain ⟨status, plain⟩ := process.plain_deliverThread _ _ _ _ _
    exact .plain status plain
  | proc =>
    obtain ⟨status, plain⟩ := process.plain_deliverProc _ _ _ _ _ _
    exact .plain status plain

theorem Attempted.plain (continues : signal ≠ sigcont)
    (stops : ¬ (signal = sigstop ∨ isConditionalStop signal = true)) :
    tried.target.status = process.status ∧ Process.SendResult.isPlain tried.result = true := by
  cases attempted with
  | refused | probed | terminating | unmapped | spared | killed | ignored => exact ⟨rfl, rfl⟩
  | continued _ _ same => exact absurd same continues
  | stopped _ _ stopping => exact absurd stopping stops
  | thread =>
    exact process.plain_deliverThread _ _ _ _ _
  | proc =>
    exact process.plain_deliverProc _ _ _ _ _ _

end

def signalKinds : List Kind := [.page, .touch, .record]

theorem conclude_cases (scheme : ProcScheme) (awoken : List VirtualId) (targetPid : ProcessId)
    (killedSelf : Bool) :
    let sent := scheme.conclude awoken targetPid result killedSelf
    (sent.scheme = scheme ∧ sent.awoken = awoken ∧ sent.parent = none ∧
      ∀ errno, sent.result = .error errno →
        result ≠ .succeeded ∧ ∀ notice ∈ result.notice?, scheme.get? notice.2.1 = none) ∨
      ∃ status ppid pgid parent, result.notice? = some (status, ppid, pgid) ∧
        scheme.get? ppid = some parent ∧
        sent.scheme = scheme.set ppid (parent.recorded targetPid pgid status) ∧
        sent.awoken = awoken ++ parent.waitpidWaiting ∧
        (∀ owed ∈ sent.parent, owed = ppid ∧ ppid ≠ initPid) ∧ sent.result = .ok () := by
  intro sent
  simp only [sent, conclude]
  cases result with
  | succeeded => exact .inl ⟨rfl, rfl, rfl, fun _ failed => nomatch failed⟩
  | succeededSigchld _ ppid pgid | succeededSigcont ppid pgid =>
    dsimp only
    split
    next missing =>
      refine .inl ⟨rfl, rfl, rfl, fun _ _ => ⟨by simp, ?_⟩⟩
      rintro notice ⟨⟩
      exact missing
    next parent found =>
      refine .inr ⟨_, ppid, pgid, parent, rfl, found, rfl, rfl, ?_, rfl⟩
      intro owed member
      split at member
      next notInit => exact ⟨(Option.some.inj member).symm, notInit⟩
      · cases member
  | _ => exact .inl ⟨rfl, rfl, rfl, fun _ _ => ⟨by simp, by simp [notice?]⟩⟩

theorem conclude_edits {scheme : ProcScheme} (found : scheme.get? targetPid = some tried.target)
    (touched : target.Touched tried.target) (announces : tried.Announces signal target) :
    let sent := scheme.conclude awoken targetPid tried.result tried.killedSelf
    Edits policy signalKinds (scheme, awoken) (sent.scheme, sent.awoken) := by
  intro sent
  rcases scheme.conclude_cases awoken targetPid tried.killedSelf with
    ⟨same, sameAwoken, -⟩ |
    ⟨status, ppid, pgid, parent, notice, parentFound, recorded, woken, -⟩
  · rw [same, sameAwoken]
    exact .refl _
  · obtain ⟨told, changed⟩ := announces.notice _ notice
    cases told
    have live : tried.target.status.isTerminating = false := by
      rw [changed, changedStatus]
      split <;> rfl
    have reported : (toldStatus signal).isTerminated = false := by
      rw [toldStatus]
      split <;> rfl
    rw [recorded, woken, ← touched.kin.pgid]
    exact Edits.process parentFound (.record found touched.kin.ppid live reported) (by decide)

section

variable (scheme : ProcScheme)

include scheme

section

variable (kernel : Kernel)

include kernel

section

variable (callerPid : ProcessId) (target : KillTarget) (signal : Nat) (killedSelf : Bool)
  (mode : KillMode) (stopOrContinue : Bool) (awoken : List VirtualId)

theorem sendSigTo_cases :
    let sent := scheme.sendSigTo kernel callerPid target signal killedSelf mode
      stopOrContinue awoken
    (∃ errno, sent = ⟨scheme, awoken, killedSelf, .error errno, none, []⟩ ∧
      (64 < signal ∨ scheme.get? target.pid = none ∨ scheme.get? callerPid = none)) ∨
    ∃ targetProc caller tried, signal ≤ 64 ∧ scheme.get? target.pid = some targetProc ∧
      scheme.get? callerPid = some caller ∧
      tried = scheme.attempt kernel callerPid caller target target.pid targetProc signal killedSelf
        mode stopOrContinue ∧
      Attempted kernel callerPid caller target targetProc signal (target.pid == callerPid)
        killedSelf mode stopOrContinue tried ∧
      sent = { (scheme.set target.pid tried.target).conclude awoken target.pid tried.result
          tried.killedSelf with
        writes := tried.writes.map fun write => (target.pid, write) } := by
  intro sent
  simp only [sent, sendSigTo]
  split
  next large => exact .inl ⟨_, rfl, .inl large⟩
  next valid =>
  split
  next missing => exact .inl ⟨_, rfl, .inr (.inl missing)⟩
  next targetProc found =>
  split
  next missing => exact .inl ⟨_, rfl, .inr (.inr missing)⟩
  next caller callerFound =>
  exact .inr ⟨targetProc, caller, _, Nat.le_of_not_lt valid, found, callerFound, rfl,
    attempted_attempt, rfl⟩

theorem sendSigTo_edits :
    let sent := scheme.sendSigTo kernel callerPid target signal killedSelf mode
      stopOrContinue awoken
    Edits policy signalKinds (scheme, awoken) (sent.scheme, sent.awoken) := by
  intro sent
  rcases scheme.sendSigTo_cases kernel callerPid target signal killedSelf mode stopOrContinue
    awoken with ⟨_, failed, -⟩ | ⟨_, _, tried, -, found, -, -, attempted, result⟩
  · simp only [sent, failed]
    exact .refl _
  · simp only [sent, result]
    have touch := @Edits.process policy signalKinds scheme awoken [] _ _ _ _ found
      (.touch attempted.touched) (show Kind.touch ∈ signalKinds by decide)
    rw [append_nil] at touch
    exact touch.trans (conclude_edits (by simp) attempted.touched attempted.announces)

theorem sendSigTo_sigchld :
    let sent := scheme.sendSigTo kernel callerPid target sigchld killedSelf mode
      stopOrContinue awoken
    Edits policy [.page] (scheme, awoken) (sent.scheme, sent.awoken) ∧ sent.parent = none := by
  intro sent
  rcases scheme.sendSigTo_cases kernel callerPid target sigchld killedSelf mode stopOrContinue
    awoken with ⟨_, failed, -⟩ | ⟨_, _, tried, -, found, -, -, attempted, result⟩
  · simp only [sent, failed]
    exact ⟨.refl _, trivial⟩
  · obtain ⟨sameStatus, plain⟩ := attempted.plain (by decide) (by decide)
    have page := @Edits.process policy [.page] scheme awoken [] _ _ _ _ found
      (.page attempted.touched sameStatus) (show Kind.page ∈ [Kind.page] by decide)
    rw [append_nil] at page
    simp only [sent, result]
    rcases conclude_cases _ _ _ _ with ⟨same, sameAwoken, noParent, -⟩ | ⟨_, _, _, _, notice, -⟩
    · rw [same, sameAwoken]
      exact ⟨page, noParent⟩
    · rw [notice?_of_isPlain plain] at notice
      cases notice

theorem onSendSig_edits :
    let sent := scheme.onSendSig kernel callerPid target signal killedSelf mode
      stopOrContinue awoken
    Edits policy signalKinds (scheme, awoken) (sent.scheme, sent.awoken) := by
  intro sent
  have first : Edits policy signalKinds (scheme, awoken) _ :=
    scheme.sendSigTo_edits kernel callerPid target signal killedSelf mode stopOrContinue awoken
  simp only [sent, onSendSig]
  split
  · exact first
  · exact first.trans (sendSigTo_edits _ _ _ _ _ _ _ _ _)

theorem onSendSig_sigchld_edits :
    let sent := scheme.onSendSig kernel callerPid target sigchld killedSelf mode
      stopOrContinue awoken
    Edits policy [.page] (scheme, awoken) (sent.scheme, sent.awoken) := by
  intro sent
  rcases scheme.sendSigTo_sigchld kernel callerPid target killedSelf mode stopOrContinue
    awoken with ⟨edits, noParent⟩
  simp only [sent, onSendSig, noParent]
  exact edits

end

theorem killMany_edits {matchGrp : Option ProcessId} :
    let killed := scheme.killMany kernel callerPid matchGrp signal mode awoken
    Edits policy signalKinds (scheme, awoken) (killed.scheme, killed.awoken) := by
  refine Edits.foldl (fun state : KillLoop => (state.scheme, state.awoken))
    (killStep kernel callerPid matchGrp signal mode) ?_ kernel.order
    ⟨scheme, awoken, false, none, 0, []⟩
  intro state pid
  simp only [killStep]
  split
  · exact .refl _
  split
  · exact .refl _
  have sent : Edits policy signalKinds (state.scheme, state.awoken) _ :=
    state.scheme.onSendSig_edits kernel callerPid (.proc pid) signal state.killedSelf mode
      false state.awoken
  split <;> exact sent

theorem onKill_edits {target : ProcKillTarget} :
    let killed := scheme.onKill kernel callerPid target signal mode awoken
    Edits policy signalKinds (scheme, awoken) (killed.scheme, killed.awoken) := by
  intro killed
  cases target with
  | singleProc pid => exact scheme.onSendSig_edits kernel callerPid (.proc pid) signal _ _ _ _
  | procGroup grp => exact scheme.killMany_edits kernel
  | all => exact scheme.killMany_edits kernel
  | thisGroup =>
    simp only [killed, onKill]
    split
    · exact .refl _
    · exact scheme.killMany_edits kernel

end

end

end ProcScheme

end EosBase.Procmgr
