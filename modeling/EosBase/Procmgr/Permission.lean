import EosBase.Procmgr.Credentials
import Mathlib.Data.List.Induction

/-!
# Signals and permission

A process without privileges signals only processes that run under one of its
own user identifiers.  The one thing that reaches other processes is the notice
to the parent of a process that was stopped or continued, and that SIGCHLD is
sent with init as its sender, past the check.
-/

namespace EosBase.Procmgr

open List ProcScheme ProcKillTarget

def Process.SharesUser (caller target : Process) : Prop :=
  target.ruid = caller.euid ∨ target.ruid = caller.ruid

instance (caller target : Process) : Decidable (caller.SharesUser target) :=
  inferInstanceAs (Decidable (_ ∨ _))

theorem getLsbD_sigBit {sig bit} :
    (sigBit sig).getLsbD bit = decide (bit = sig - 1 ∧ bit < 64) := by
  simp only [sigBit, BitVec.getLsbD_shiftLeft, BitVec.getLsbD_one]
  by_cases small : bit < 64
  · by_cases below : bit < sig - 1
    · have apart : bit ≠ sig - 1 := by omega
      simp [below, apart]
    by_cases same : bit = sig - 1
    · simp [same, show sig - 1 < 64 by omega]
    · have positive : bit - (sig - 1) ≠ 0 := by omega
      simp [same, positive]
  · simp [small]

theorem SigProcControl.getLsbD_raise {pctl : SigProcControl} {sig bit} :
    (pctl.raise sig).pending.getLsbD bit =
      (pctl.pending.getLsbD bit || decide (bit = sig - 1 ∧ bit < 64)) := by
  simp only [raise, BitVec.getLsbD_or, getLsbD_sigBit]

/-- Two versions of a signal page that differ in SIGCHLD at most. -/
structure SigProcControl.SigchldAtMost (before after : SigProcControl) : Prop where
  pending : ∀ bit, bit ≠ sigchld - 1 →
    after.pending.getLsbD bit = before.pending.getLsbD bit
  senderInfos : ∀ index, index ≠ sigchld - 1 →
    after.senderInfos index = before.senderInfos index
  signalWillIgn : after.signalWillIgn = before.signalWillIgn
  signalWillStop : after.signalWillStop = before.signalWillStop

namespace SigProcControl.SigchldAtMost

theorem refl (pctl : SigProcControl) : pctl.SigchldAtMost pctl :=
  ⟨fun _ _ => rfl, fun _ _ => rfl, rfl, rfl⟩

theorem trans {first second third : SigProcControl} (earlier : first.SigchldAtMost second)
    (later : second.SigchldAtMost third) : first.SigchldAtMost third where
  pending bit other := (later.pending bit other).trans (earlier.pending bit other)
  senderInfos index other :=
    (later.senderInfos index other).trans (earlier.senderInfos index other)
  signalWillIgn := later.signalWillIgn.trans earlier.signalWillIgn
  signalWillStop := later.signalWillStop.trans earlier.signalWillStop

theorem raise (pctl : SigProcControl) (sender : SenderInfo) : pctl.SigchldAtMost
      (SigProcControl.raise { pctl with
          senderInfos := Function.update pctl.senderInfos ((sigchld - 1) % 32) (some sender) }
        sigchld) := by
  refine ⟨?_, ?_, rfl, rfl⟩
  · intro bit other
    rw [SigProcControl.getLsbD_raise]
    simp [other]
  · intro index other
    exact Function.update_of_ne other _ _

end SigProcControl.SigchldAtMost

variable {caller process : Process} {callerPid pid : ProcessId} {kernel : Kernel}
  {stopOrContinue killedSelf : Bool} {mode : KillMode} {aim : KillTarget}

namespace ProcScheme

theorem attempt_refused {targetProc} (scheme : ProcScheme) (kernel : Kernel)
    (callerPid : ProcessId) (target : KillTarget) (targetPid : ProcessId) (signal : Nat)
    (killedSelf : Bool) (mode : KillMode) (stopOrContinue : Bool) (unprivileged : caller.euid ≠ 0)
    (stranger : ¬ caller.SharesUser targetProc) :
    scheme.attempt kernel callerPid caller target targetPid targetProc signal killedSelf mode
      stopOrContinue = ⟨.lacksPermission, targetProc, killedSelf, []⟩ := by
  have refused : caller.euid ≠ 0 ∧ caller.euid ≠ targetProc.ruid ∧ caller.ruid ≠ targetProc.ruid :=
    ⟨unprivileged, fun same => stranger (.inl same.symm), fun same => stranger (.inr same.symm)⟩
  exact if_pos refused

structure SigchldSpec (target : Process) (tried : Attempt) : Prop where
  rest : tried.target = { target with sigPctl := tried.target.sigPctl }
  page : Option.Rel SigProcControl.SigchldAtMost target.sigPctl tried.target.sigPctl
  writes : ∀ write ∈ tried.writes, write.verb = .interrupt

theorem SigchldSpec.unchanged {tried target} (same : tried.target = target)
    (silent : tried.writes = []) : SigchldSpec target tried := by
  refine ⟨by rw [same], ?_, by simp [silent]⟩
  rw [same]
  exact optionRel_refl .refl

theorem Attempted.sigchldSpec {tried isSelf} (attempted : Attempted kernel callerPid caller
    (.proc pid) process sigchld isSelf killedSelf .idempotent stopOrContinue tried) :
    SigchldSpec process tried := by
  cases attempted with
  | refused | probed | terminating | unmapped | spared | ignored => exact .unchanged rfl rfl
  | continued _ _ continues => exact absurd continues (by decide)
  | stopped _ _ stops => exact absurd rfl (stopping_ne stops).2.2
  | killed kills => exact absurd kills (by decide)
  | thread impossible => cases impossible
  | @proc _ pctl _ _ _ mapped _ =>
    simp only [Process.deliverProc]
    split
    · exact .unchanged rfl rfl
    split
    · exact .unchanged rfl rfl
    refine ⟨rfl, ?_, ?_⟩
    · rw [mapped]
      exact .some (.raise pctl _)
    · intro write member
      obtain ⟨thread, _, equality⟩ := mem_map.mp member
      rw [← equality]

end ProcScheme

/-- A child of `pid` that the caller may signal now has the status that the
signal gives. -/
def ChildChanged (start current : ProcScheme) (caller : Process) (signal : Nat)
    (pid childPid pgid : ProcessId) : Prop :=
  ∃ child after, start.get? childPid = some child ∧ child.ppid = pid ∧
    child.pgid = pgid ∧ caller.SharesUser child ∧ current.get? childPid = some after ∧
    after.status = changedStatus signal

def RecordedFrom (told : ProcessId → ProcessId → Prop) (signal : Nat) :
    WaitpidMap → WaitpidMap → Prop :=
  Relation.ReflTransGen fun before after => ∃ childPid pgid, told childPid pgid ∧
    after = before.insert WaitpidKey.cmp ⟨some childPid, some pgid⟩
      (childPid, toldStatus signal)

/-- A process is told about children and nothing else: their entries, SIGCHLD,
and its waiters leave. -/
structure Process.Notified (told : ProcessId → ProcessId → Prop) (signal : Nat)
    (before after : Process) : Prop where
  rest : after = { before with
    waitpid := after.waitpid
    waitpidWaiting := after.waitpidWaiting
    sigPctl := after.sigPctl }
  waitpid : RecordedFrom told signal before.waitpid after.waitpid
  page : Option.Rel SigProcControl.SigchldAtMost before.sigPctl after.sigPctl
  waitpidWaiting : after.waitpidWaiting = before.waitpidWaiting ∨ after.waitpidWaiting = []

variable {childPid pgid : ProcessId} {signal : Nat} {told wider : ProcessId → ProcessId → Prop}
  {first second third : Process}

namespace Process.Notified

theorem trans (earlier : first.Notified told signal second)
    (later : second.Notified told signal third) : first.Notified told signal third := by
  refine ⟨?_, earlier.waitpid.trans later.waitpid, ?_, ?_⟩
  · rw [later.rest, earlier.rest]
  · have onward := later.page
    have page := earlier.page
    generalize first.sigPctl = old, second.sigPctl = middle, third.sigPctl = new at *
    cases page with
    | none => exact onward
    | some related =>
      cases onward with
      | some further => exact .some (related.trans further)
  · rcases later.waitpidWaiting with same | drained
    · rw [same]
      exact earlier.waitpidWaiting
    · exact .inr drained

theorem mono (notified : first.Notified told signal second)
    (implied : ∀ childPid pgid, told childPid pgid → wider childPid pgid) :
    first.Notified wider signal second := by
  refine ⟨notified.rest, ?_, notified.page, notified.waitpidWaiting⟩
  refine Relation.ReflTransGen.mono ?_ _ _ notified.waitpid
  rintro before after ⟨childPid, pgid, known, equality⟩
  exact ⟨childPid, pgid, implied _ _ known, equality⟩

theorem recorded (known : told childPid pgid) (process : Process) :
    process.Notified told signal (process.recorded childPid pgid (toldStatus signal)) :=
  ⟨rfl, .single ⟨childPid, pgid, known, rfl⟩, optionRel_refl .refl, .inr rfl⟩

end Process.Notified

structure Process.Persists (before after : Process) : Prop where
  ppid : after.ppid = before.ppid
  pgid : after.pgid = before.pgid
  ruid : after.ruid = before.ruid
  euid : after.euid = before.euid
  waitpidWaiting : after.waitpidWaiting = before.waitpidWaiting ∨ after.waitpidWaiting = []

namespace Process.Persists

theorem refl (process : Process) : process.Persists process :=
  ⟨rfl, rfl, rfl, rfl, .inl rfl⟩

theorem trans {first second third : Process} (earlier : first.Persists second)
    (later : second.Persists third) : first.Persists third := by
  refine ⟨later.ppid.trans earlier.ppid, later.pgid.trans earlier.pgid,
    later.ruid.trans earlier.ruid, later.euid.trans earlier.euid, ?_⟩
  rcases later.waitpidWaiting with same | drained
  · rw [same]
    exact earlier.waitpidWaiting
  · exact .inr drained

end Process.Persists

variable {after before : Process}

theorem Process.Touched.persists (touched : before.Touched after) : before.Persists after :=
  ⟨touched.kin.ppid, touched.kin.pgid, touched.creds.ruid, touched.creds.euid,
    .inl touched.waitpidWaiting⟩

/-- The effects of the signals that `caller` has sent so far, from `start` on.
A process of another user is as before, or it was told that a child of its own
was stopped or continued. -/
structure Confined (start : ProcScheme) (caller : Process) (signal : Nat)
    (awokenBefore : List VirtualId) (current : ProcScheme) (awoken : List VirtualId)
    (writes : List (ProcessId × StatusWrite)) : Prop where
  steady : ∀ pid, Option.Rel Process.Persists (start.get? pid) (current.get? pid)
  spared : ∀ pid before after, start.get? pid = some before → current.get? pid = some after →
    ¬ caller.SharesUser before →
    after = before ∨
      (∃ childPid pgid, ChildChanged start current caller signal pid childPid pgid) ∧
        before.Notified (ChildChanged start current caller signal pid) signal after
  awoken : ∀ id ∈ awoken, id ∈ awokenBefore ∨
    ∃ pid before, start.get? pid = some before ∧ id ∈ before.waitpidWaiting ∧
      ∃ childPid pgid, ChildChanged start current caller signal pid childPid pgid
  writes : ∀ write ∈ writes, ∃ before, start.get? write.1 = some before ∧
    (caller.SharesUser before ∨ write.2.verb = .interrupt ∧
      ∃ childPid pgid, ChildChanged start current caller signal write.1 childPid pgid)

variable {now : Process} {start current : ProcScheme}

namespace ChildChanged

theorem set {other} (changed : ChildChanged start current caller signal other childPid pgid)
    (found : current.get? pid = some now)
    (status : after.status = now.status ∨ after.status = changedStatus signal) :
    ChildChanged start (current.set pid after) caller signal other childPid pgid := by
  rcases changed with ⟨child, childNow, childFound, parent, group, shares, nowFound, reached⟩
  by_cases same : childPid = pid
  · subst same
    cases found.symm.trans nowFound
    refine ⟨child, after, childFound, parent, group, shares, by simp, ?_⟩
    rcases status with kept | changed
    · exact kept.trans reached
    · exact changed
  · exact ⟨child, childNow, childFound, parent, group, shares, by simpa [same] using nowFound,
      reached⟩

end ChildChanged

variable {awoken : List VirtualId} {scheme start current : ProcScheme}
  {awokenBefore : List VirtualId} {writes : List (ProcessId × StatusWrite)}

namespace Confined

theorem initial (start : ProcScheme) (caller : Process) (signal : Nat)
    (awoken : List VirtualId) : Confined start caller signal awoken start awoken [] where
  steady pid := optionRel_refl .refl
  spared pid before after found foundAfter _ := by
    cases found.symm.trans foundAfter
    exact .inl rfl
  awoken id member := .inl member
  writes write member := by cases member

theorem origin (confined : Confined start caller signal awokenBefore current awoken writes)
    (found : current.get? pid = some now) :
    ∃ before, start.get? pid = some before ∧ before.Persists now := by
  have related := confined.steady pid
  rw [found] at related
  generalize start.get? pid = before at related ⊢
  cases related with
  | some steady => exact ⟨_, rfl, steady⟩

theorem sharesUser_iff (steady : before.Persists now) :
    caller.SharesUser now ↔ caller.SharesUser before := by
  simp only [Process.SharesUser, steady.ruid]

section

variable (confined : Confined start caller signal awokenBefore current awoken writes)

include confined

section

variable (found : current.get? pid = some now)

include found

theorem set (steady : now.Persists after)
    (status : after.status = now.status ∨ after.status = changedStatus signal)
    (stranger : ¬ caller.SharesUser now → after = now ∨
      (∃ childPid pgid, ChildChanged start current caller signal pid childPid pgid) ∧
        now.Notified (ChildChanged start current caller signal pid) signal after) :
    Confined start caller signal awokenBefore (current.set pid after) awoken writes := by
  have kept : ∀ {other childPid pgid},
      ChildChanged start current caller signal other childPid pgid →
      ChildChanged start (current.set pid after) caller signal other childPid pgid :=
    fun changed => changed.set found status
  refine ⟨?_, ?_, ?_, ?_⟩
  · intro other
    rw [get?_set]
    split
    next same =>
      subst same
      obtain ⟨before, startFound, earlier⟩ := confined.origin found
      rw [startFound]
      exact .some (earlier.trans steady)
    · exact confined.steady other
  · intro other before last startFound lastFound foreign
    rcases set_found lastFound with ⟨same, equality⟩ | ⟨_, sameFound⟩
    · subst same equality
      obtain ⟨_, foundAgain, earlier⟩ := confined.origin found
      cases startFound.symm.trans foundAgain
      have known := confined.spared _ before now startFound found foreign
      rcases stranger (fun shares => foreign ((sharesUser_iff earlier).mp shares)) with
        equality | ⟨⟨childPid, pgid, changed⟩, notified⟩
      · subst equality
        refine known.imp_right ?_
        rintro ⟨⟨childPid, pgid, changed⟩, notified⟩
        exact ⟨⟨childPid, pgid, kept changed⟩, notified.mono fun _ _ => kept⟩
      · refine .inr ⟨⟨childPid, pgid, kept changed⟩, ?_⟩
        have told := notified.mono fun _ _ => kept
        rcases known with untouched | ⟨_, before⟩
        · rwa [untouched] at told
        · exact (before.mono fun _ _ => kept).trans told
    · rcases confined.spared other before last startFound sameFound foreign with
        untouched | ⟨⟨childPid, pgid, changed⟩, notified⟩
      · exact .inl untouched
      · exact .inr ⟨⟨childPid, pgid, kept changed⟩, notified.mono fun _ _ => kept⟩
  · intro id member
    rcases confined.awoken id member with old | ⟨other, before, startFound, waiter, childPid,
      pgid, changed⟩
    · exact .inl old
    · exact .inr ⟨other, before, startFound, waiter, childPid, pgid, kept changed⟩
  · intro write member
    obtain ⟨before, startFound, reason⟩ := confined.writes write member
    refine ⟨before, startFound, reason.imp_right ?_⟩
    rintro ⟨interrupts, childPid, pgid, changed⟩
    exact ⟨interrupts, childPid, pgid, kept changed⟩

theorem awaken (changed : ChildChanged start current caller signal pid childPid pgid) :
    Confined start caller signal awokenBefore current (awoken ++ now.waitpidWaiting) writes := by
  refine ⟨confined.steady, confined.spared, ?_, confined.writes⟩
  intro id member
  rcases mem_append.mp member with old | waiter
  · exact confined.awoken id old
  obtain ⟨before, startFound, steady⟩ := confined.origin found
  apply Or.inr
  refine ⟨pid, before, startFound, ?_, childPid, pgid, changed⟩
  rcases steady.waitpidWaiting with same | drained
  · rwa [same] at waiter
  · rw [drained] at waiter
    cases waiter

theorem write (added : List StatusWrite)
    (reason : added ≠ [] → caller.SharesUser now ∨ (∀ write ∈ added, write.verb = .interrupt) ∧
        ∃ childPid pgid, ChildChanged start current caller signal pid childPid pgid) :
    Confined start caller signal awokenBefore current awoken
      (writes ++ added.map fun write => (pid, write)) := by
  refine ⟨confined.steady, confined.spared, confined.awoken, ?_⟩
  intro write member
  rcases mem_append.mp member with old | new
  · exact confined.writes write old
  obtain ⟨written, writtenMembership, equality⟩ := mem_map.mp new
  subst equality
  obtain ⟨before, startFound, steady⟩ := confined.origin found
  refine ⟨before, startFound, ?_⟩
  rcases reason (ne_nil_of_mem writtenMembership) with shares | ⟨interrupts, changed⟩
  · exact .inl ((sharesUser_iff steady).mp shares)
  · exact .inr ⟨interrupts written writtenMembership, changed⟩

end

theorem sendSigchld {ppid : ProcessId}
    (changed : ChildChanged start current caller signal ppid childPid pgid) (kernel : Kernel)
    (killedSelf : Bool) :
    let sent := current.sendSigTo kernel initPid (.proc ppid) sigchld killedSelf .idempotent
      true awoken
    Confined start caller signal awokenBefore sent.scheme sent.awoken
      (writes ++ sent.writes) := by
  intro sent
  rcases current.sendSigTo_cases kernel initPid (.proc ppid) sigchld killedSelf .idempotent true
    awoken with ⟨_, failed, -⟩ | ⟨parent, init, tried, -, found, -, -, attempted, result⟩
  · simp only [sent, failed, append_nil]
    exact confined
  simp only [sent, result, KillTarget.pid]
  have spec := attempted.sigchldSpec
  have plain := (attempted.plain (by decide) (by decide)).2
  have steady : parent.Persists tried.target := by
    rw [spec.rest]
    exact ⟨rfl, rfl, rfl, rfl, .inl rfl⟩
  have status : tried.target.status = parent.status := by rw [spec.rest]
  have notified : parent.Notified (ChildChanged start current caller signal ppid) signal
      tried.target := by
    refine ⟨?_, ?_, spec.page, steady.waitpidWaiting⟩
    · rw [spec.rest]
    · rw [spec.rest]
      exact .refl
  have written := (confined.set found steady (.inl status)
    (fun _ => .inr ⟨⟨_, _, changed⟩, notified⟩)).write get?_set_self
    tried.writes (fun _ => .inr ⟨spec.writes, _, _, changed.set found (.inl status)⟩)
  rcases conclude_cases (current.set ppid tried.target) awoken ppid
    tried.killedSelf with ⟨sameScheme, sameAwoken, -⟩ | ⟨_, _, _, _, notice, _⟩
  · rw [sameScheme, sameAwoken]
    exact written
  · rw [SendResult.notice?_of_isPlain plain] at notice
    cases notice

variable (callerFound : start.get? callerPid = some caller) (unprivileged : caller.euid ≠ 0)
  (kernel : Kernel) (pid : ProcessId) (killedSelf : Bool) (mode : KillMode) (stopOrContinue : Bool)

include callerFound unprivileged

theorem sendSigTo :
    let sent := current.sendSigTo kernel callerPid (.proc pid) signal killedSelf mode
      stopOrContinue awoken
    Confined start caller signal awokenBefore sent.scheme sent.awoken (writes ++ sent.writes) ∧
      ∀ ppid ∈ sent.parent,
        ∃ childPid pgid, ChildChanged start sent.scheme caller signal ppid childPid pgid := by
  intro sent
  rcases current.sendSigTo_cases kernel callerPid (.proc pid) signal killedSelf mode stopOrContinue
    awoken with ⟨_, failed, -⟩ |
    ⟨targetProc, callerNow, tried, -, found, callerNowFound, isTried, attempted, result⟩
  · simp only [sent, failed, append_nil]
    exact ⟨confined, by simp⟩
  simp only [sent, result, KillTarget.pid]
  obtain ⟨_, startFound, callerSteady⟩ := confined.origin callerNowFound
  cases callerFound.symm.trans startFound
  by_cases shares : caller.SharesUser targetProc
  · have touched := attempted.touched
    have announced := attempted.announces
    have signalled := (confined.set found touched.persists announced.status
      (fun foreign => (foreign shares).elim)).write get?_set_self tried.writes
      (fun _ => .inl (by rwa [Process.SharesUser, touched.creds.ruid]))
    rcases conclude_cases (current.set pid tried.target) awoken pid
      tried.killedSelf with ⟨sameScheme, sameAwoken, noParent, -⟩ |
      ⟨status, ppid, pgid, parent, notice, parentFound, recorded, woken, owed, _⟩
    · rw [sameScheme, sameAwoken, noParent]
      exact ⟨signalled, by simp⟩
    · obtain ⟨equality, changed⟩ := announced.notice _ notice
      cases equality
      obtain ⟨before, beforeFound, steady⟩ := confined.origin found
      have child : ChildChanged start (current.set pid tried.target) caller signal
          targetProc.ppid pid targetProc.pgid :=
        ⟨before, tried.target, beforeFound, steady.ppid.symm, steady.pgid.symm,
          (sharesUser_iff steady).mp shares, by simp, changed⟩
      have parentSteady :
          parent.Persists (parent.recorded pid targetProc.pgid (toldStatus signal)) :=
        ⟨rfl, rfl, rfl, rfl, .inr rfl⟩
      have told := (signalled.awaken parentFound child).set parentFound parentSteady (.inl rfl)
        (fun _ => .inr ⟨⟨_, _, child⟩, .recorded child parent⟩)
      rw [recorded, woken]
      refine ⟨told, ?_⟩
      intro owedPid member
      rw [(owed owedPid member).1]
      exact ⟨_, _, child.set parentFound (.inl rfl)⟩
  · have stranger : ¬ callerNow.SharesUser targetProc := by
      rwa [Process.SharesUser, callerSteady.euid, callerSteady.ruid]
    rw [isTried, current.attempt_refused kernel callerPid (.proc pid) _ signal killedSelf mode
      stopOrContinue (by rwa [callerSteady.euid]) stranger]
    have rewritten := confined.set found (.refl _) (.inl rfl) (fun _ => .inl rfl)
    simp only [conclude, map_nil, append_nil]
    exact ⟨rewritten, by simp⟩

/-- One call of `on_send_sig`. -/
theorem onSendSig :
    let sent := current.onSendSig kernel callerPid (.proc pid) signal killedSelf mode
      stopOrContinue awoken
    Confined start caller signal awokenBefore sent.scheme sent.awoken
      (writes ++ sent.writes) := by
  intro sent
  obtain ⟨signalled, owed⟩ := confined.sendSigTo callerFound unprivileged kernel pid killedSelf
    mode stopOrContinue
  simp only [sent, ProcScheme.onSendSig]
  split
  · exact signalled
  next ppid parent =>
  obtain ⟨childPid, pgid, changed⟩ := owed ppid parent
  have told := signalled.sendSigchld changed kernel
    (current.sendSigTo kernel callerPid (.proc pid) signal killedSelf mode stopOrContinue
      awoken).killedSelf
  rw [← append_assoc]
  exact told

end

theorem killMany (callerFound : start.get? callerPid = some caller) (unprivileged : caller.euid ≠ 0)
    (kernel : Kernel) (matchGrp : Option ProcessId) (mode : KillMode) (awoken : List VirtualId) :
    let killed := start.killMany kernel callerPid matchGrp signal mode awoken
    Confined start caller signal awoken killed.scheme killed.awoken killed.writes := by
  refine foldlRecOn (motive := fun state : KillLoop => Confined start caller signal awoken
    state.scheme state.awoken state.writes) kernel.order _
    (.initial start caller signal awoken) ?_
  intro state confined pid _
  have sent := confined.onSendSig callerFound unprivileged kernel pid state.killedSelf mode false
  simp only [killStep]
  split
  · exact confined
  split
  · exact confined
  split <;> exact sent

end Confined

def ProcKillTarget.selects (target : ProcKillTarget) (caller : Process) (pid : ProcessId)
    (process : Process) : Prop :=
  match target with
  | .singleProc wanted => pid = wanted
  | .procGroup grp => process.pgid = grp
  | .thisGroup => process.pgid = caller.pgid
  | .all => True

instance (target : ProcKillTarget) (caller : Process) (pid : ProcessId) (process : Process) :
    Decidable (target.selects caller pid process) :=
  match target with
  | .singleProc _ => inferInstanceAs (Decidable (_ = _))
  | .procGroup _ => inferInstanceAs (Decidable (_ = _))
  | .thisGroup => inferInstanceAs (Decidable (_ = _))
  | .all => inferInstanceAs (Decidable True)

namespace ProcScheme

def Selects (scheme : ProcScheme) (matchGrp : Option ProcessId) (pid : ProcessId) : Prop :=
  ∃ process, scheme.get? pid = some process ∧ ∀ grp ∈ matchGrp, process.pgid = grp

/-- A loop that finds only processes of other users changes nothing and fails
with EPERM, once it has met one of them. -/
structure Refused (scheme : ProcScheme) (matchGrp : Option ProcessId) (met : List ProcessId)
    (state : KillLoop) : Prop where
  lookup : ∀ pid, state.scheme.get? pid = scheme.get? pid
  numSucceeded : state.numSucceeded = 0
  errOpt : state.errOpt = none ∨ state.errOpt = some .EPERM
  failed : (∃ pid ∈ met, scheme.Selects matchGrp pid) → state.errOpt = some .EPERM

variable {matchGrp : Option ProcessId}

section

variable (callerFound : scheme.get? callerPid = some caller) (unprivileged : caller.euid ≠ 0)

include callerFound unprivileged

theorem onSendSig_refused (found : scheme.get? pid = some process)
    (stranger : ¬ caller.SharesUser process) (valid : signal ≤ 64) :
    scheme.onSendSig kernel callerPid (.proc pid) signal killedSelf mode stopOrContinue awoken =
      ⟨scheme.set pid process, awoken, killedSelf, .error .EPERM, none, []⟩ := by
  have refused := scheme.attempt_refused kernel callerPid (.proc pid) pid signal killedSelf mode
    stopOrContinue unprivileged stranger
  simp only [onSendSig, sendSigTo, KillTarget.pid, found, callerFound, refused, conclude,
    if_neg (Nat.not_lt.mpr valid), map_nil]

section

variable (valid : signal ≤ 64) (mode : KillMode)
  (strangers : ∀ pid process, scheme.get? pid = some process →
    (∀ grp ∈ matchGrp, process.pgid = grp) → ¬ caller.SharesUser process)

include valid strangers

theorem killStep_refused {met state} (refused : Refused scheme matchGrp met state) :
    Refused scheme matchGrp (met ++ [pid])
      (killStep kernel callerPid matchGrp signal mode state pid) := by
  have passed : (∀ process, scheme.get? pid = some process → ∃ grp ∈ matchGrp, process.pgid ≠ grp) →
      Refused scheme matchGrp (met ++ [pid]) state := by
    intro other
    refine ⟨refused.lookup, refused.numSucceeded, refused.errOpt, ?_⟩
    rintro ⟨visited, member, process, found, matching⟩
    rcases mem_append.mp member with old | new
    · exact refused.failed ⟨visited, old, process, found, matching⟩
    rw [mem_singleton] at new
    subst new
    obtain ⟨grp, wanted, different⟩ := other process found
    exact (different (matching grp wanted)).elim
  unfold killStep
  split
  next missing =>
    apply passed
    intro process found
    rw [refused.lookup] at missing
    cases missing.symm.trans found
  next process found =>
  have startFound := found
  rw [refused.lookup] at startFound
  split
  next other =>
    apply passed
    intro again foundAgain
    cases startFound.symm.trans foundAgain
    obtain ⟨grp, wanted, different⟩ := Option.any_eq_true .. |>.mp other
    exact ⟨grp, wanted, by simpa using different⟩
  next matching =>
  have selected : ∀ grp ∈ matchGrp, process.pgid = grp := by
    intro grp wanted
    rw [Option.mem_def.mp wanted] at matching
    simpa using matching
  rw [onSendSig_refused ((refused.lookup callerPid).trans callerFound) unprivileged found
    (strangers pid process startFound selected) valid]
  refine ⟨?_, refused.numSucceeded, .inr rfl, fun _ => rfl⟩
  intro other
  rw [get?_set]
  split
  next same => rw [same, startFound]
  · exact refused.lookup other

theorem killMany_refused (covers : kernel.Covers scheme)
    (target : ∃ pid, scheme.Selects matchGrp pid) :
    (scheme.killMany kernel callerPid matchGrp signal mode awoken).result =
      .error .EPERM := by
  have final : Refused scheme matchGrp kernel.order (kernel.order.foldl
      (killStep kernel callerPid matchGrp signal mode) ⟨scheme, awoken, false, none, 0, []⟩) := by
    induction kernel.order using reverseRecOn with
    | nil => exact ⟨fun _ => rfl, rfl, .inl rfl, by simp⟩
    | append_singleton pids pid ih =>
      rw [foldl_append]
      exact killStep_refused callerFound unprivileged valid mode strangers ih
  obtain ⟨pid, process, found, matching⟩ := target
  have failed := final.failed ⟨pid, covers pid process found, process, found, matching⟩
  simp only [killMany, final.numSucceeded, failed, if_true]

end

theorem killMany_confined (covers : kernel.Covers scheme)
    {target : ProcKillTarget} (selects : ∀ pid process,
      target.selects caller pid process ↔ ∀ grp ∈ matchGrp, process.pgid = grp) :
    let killed := scheme.killMany kernel callerPid matchGrp signal mode awoken
    Confined scheme caller signal awoken killed.scheme killed.awoken killed.writes ∧
      (signal ≤ 64 →
        (∃ pid process, scheme.get? pid = some process ∧ target.selects caller pid process) →
        (∀ pid process, scheme.get? pid = some process → target.selects caller pid process →
          ¬ caller.SharesUser process) →
        killed.result = .error .EPERM) := by
  simp only [selects]
  refine ⟨Confined.killMany callerFound unprivileged kernel matchGrp mode awoken, ?_⟩
  intro valid present strangers
  exact killMany_refused callerFound unprivileged valid mode strangers covers present

end

end ProcScheme

/-- A kill by an unprivileged process is confined to the processes of its
users, and fails with EPERM when it was meant for others only. -/
theorem kill_confined {scheme : ProcScheme} {callerPid : ProcessId} {caller : Process}
    (callerFound : scheme.get? callerPid = some caller) (unprivileged : caller.euid ≠ 0)
    {kernel : Kernel} (covers : kernel.Covers scheme) (target : ProcKillTarget) (signal : Nat)
    (mode : KillMode) (awoken : List VirtualId) :
    let killed := scheme.onKill kernel callerPid target signal mode awoken
    Confined scheme caller signal awoken killed.scheme killed.awoken killed.writes ∧
      (signal ≤ 64 → (∃ pid process, scheme.get? pid = some process ∧
          target.selects caller pid process) →
        (∀ pid process, scheme.get? pid = some process → target.selects caller pid process →
          ¬ caller.SharesUser process) →
        killed.result = .error .EPERM) := by
  intro killed
  cases target with
  | singleProc wanted =>
    refine ⟨(Confined.initial scheme caller signal awoken).onSendSig callerFound unprivileged
      kernel wanted false mode false, ?_⟩
    rintro valid ⟨pid, process, found, rfl⟩ strangers
    simp only [killed, onKill]
    rw [onSendSig_refused callerFound unprivileged found (strangers pid process found rfl) valid]
  | procGroup grp =>
    exact killMany_confined callerFound unprivileged covers fun pid process => by simp [selects]
  | thisGroup =>
    simp only [killed, onKill, callerFound]
    exact killMany_confined callerFound unprivileged covers fun pid process => by simp [selects]
  | all =>
    exact killMany_confined callerFound unprivileged covers fun pid process => by simp [selects]

/-- A process that gave up root cannot kill init. -/
theorem kill_confined_user : ∃ (manager : Manager) (caller : Process),
    procmgr.Reachable manager ∧ manager.scheme.get? 2 = some caller ∧ caller.euid = 1000 ∧
    let killed := manager.scheme.onKill (Scenario.kernel 9 0) 2 (.singleProc initPid) sigkill
      .idempotent []
    Confined manager.scheme caller sigkill [] killed.scheme killed.awoken killed.writes ∧
      killed.result = .error .EPERM := by
  have reached := procmgr.reachable_replay userRun rfl
  refine ⟨_, _, reached, rfl, rfl, ?_⟩
  have confined := kill_confined
    (show ((procmgr.replay (fun _ _ => True) procmgr.start userRun).get rfl).2.scheme.get? 2 =
      some _ from rfl)
    (by decide) (show (Scenario.kernel 9 0).Admits _ from of_decide_eq_true rfl).covers
    (.singleProc initPid) sigkill .idempotent []
  refine ⟨confined.1, confined.2 (by decide) ⟨initPid, _, rfl, rfl⟩ ?_⟩
  rintro pid process found rfl
  cases found
  decide

end EosBase.Procmgr
