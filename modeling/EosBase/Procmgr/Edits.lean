import EosBase.Procmgr.Run
import Mathlib.Logic.Relation

/-!
# What a step can do to the processes

Every operation of the process manager is a sequence of edits, each of which
concerns one process, or adds one, or takes one away.  An edit also says which
requests it appends to the queue of awoken ones.  The invariants of the later
modules are proved for each kind of edit and then hold after every operation
that is made of such edits.

Two kinds are large: an evaluated wait and a completed exit.  They are made of
smaller ones, but some invariants only hold again at their end.
-/

namespace EosBase.Procmgr

open ProcScheme Thread

/-- The kinds of edits, so that an operation can say which ones it makes. -/
inductive Kind where
  /-- Signal pages, queues, names. -/
  | page
  /-- The same, and a change between running and stopped. -/
  | touch
  | creds
  /-- A child stopped or continued: its parent is told and its waiters wake up. -/
  | record
  /-- The same for a child that exited. -/
  | recordExit
  | drain
  | register
  /-- An entry is taken from the wait map. -/
  | consume
  | newThread
  | startExit
  | awaitThreads
  | exited
  | threadDeath
  | reap
  | fork
  | registerInit
  | regroup
  | setSid
  | reparent
  /-- An evaluated wait, which may take an entry and reap a process. -/
  | wait
  /-- The completion of an exit, from `Exiting` to the entry at the parent. -/
  | complete
  | handles
  | internal
  deriving DecidableEq

abbrev Kind.Small (kind : Kind) : Prop := kind ≠ .wait ∧ kind ≠ .complete

def Thread.ident (thread : Thread) : Nat × Nat × ProcessId :=
  (thread.rc, thread.fd, thread.pid)

structure Process.SameKin (before after : Process) : Prop where
  ppid : after.ppid = before.ppid
  pgid : after.pgid = before.pgid
  sid : after.sid = before.sid

structure Process.SameCreds (before after : Process) : Prop where
  ruid : after.ruid = before.ruid
  euid : after.euid = before.euid
  suid : after.suid = before.suid
  rgid : after.rgid = before.rgid
  egid : after.egid = before.egid
  sgid : after.sgid = before.sgid

theorem Process.SameKin.refl (process : Process) : process.SameKin process :=
  ⟨rfl, rfl, rfl⟩

theorem Process.SameCreds.refl (process : Process) : process.SameCreds process :=
  ⟨rfl, rfl, rfl, rfl, rfl, rfl⟩

structure Process.Touched (before after : Process) : Prop where
  kin : before.SameKin after
  creds : before.SameCreds after
  threads : after.threads.map ident = before.threads.map ident
  awaitingThreadsTerm : after.awaitingThreadsTerm = before.awaitingThreadsTerm
  waitpid : after.waitpid = before.waitpid
  waitpidWaiting : after.waitpidWaiting = before.waitpidWaiting
  status : after.status = before.status ∨
    (before.status.isTerminating = false ∧ after.status.isTerminating = false)

theorem Process.Touched.edit {process : Process}
    {threads name prio status disabledSetpgid sigPctl rtqs}
    (idents : threads.map ident = process.threads.map ident) (live : status = process.status ∨
      (process.status.isTerminating = false ∧ status.isTerminating = false)) :
    process.Touched { process with threads, name, prio, status, disabledSetpgid, sigPctl, rtqs } :=
  ⟨⟨rfl, rfl, rfl⟩, ⟨rfl, rfl, rfl, rfl, rfl, rfl⟩, idents, rfl, rfl, rfl, live⟩

theorem Process.Touched.isEmpty_threads {before after : Process} (touched : before.Touched after) :
    after.threads.isEmpty = before.threads.isEmpty := by
  have same := congrArg List.isEmpty touched.threads
  simpa using same

def WaitpidStatus.isTerminated : WaitpidStatus → Bool
  | terminated _ _ => true
  | _ => false

def Process.recorded (process : Process) (childPid pgid : ProcessId) (status : WaitpidStatus) :
    Process :=
  { process with
    waitpid := process.waitpid.insert WaitpidKey.cmp ⟨some childPid, some pgid⟩
      (childPid, status)
    waitpidWaiting := [] }

/-- `setresugid` as far as the identifiers are concerned: a process that is not
root may only permute what it has. -/
structure Process.CredsFrom (before after : Process) : Prop where
  kin : before.SameKin after
  threads : after.threads = before.threads
  awaitingThreadsTerm : after.awaitingThreadsTerm = before.awaitingThreadsTerm
  waitpid : after.waitpid = before.waitpid
  waitpidWaiting : after.waitpidWaiting = before.waitpidWaiting
  status : after.status = before.status
  uids : before.euid ≠ 0 → ∀ id ∈ [after.ruid, after.euid, after.suid],
    id ∈ [before.ruid, before.euid, before.suid]
  gids : before.euid ≠ 0 → ∀ id ∈ [after.rgid, after.egid, after.sgid],
    id ∈ [before.rgid, before.egid, before.sgid]

def ProcessStatus.exit? : ProcessStatus → Option (Option Nat × Nat)
  | exited signal status => some (signal, status)
  | _ => none

/-- Two versions of a process that a policy does not tell apart. -/
structure Process.Alike (before after : Process) : Prop where
  kin : before.SameKin after
  waitpid : after.waitpid = before.waitpid
  exit? : after.status.exit? = before.status.exit?

theorem Process.Alike.refl (process : Process) : process.Alike process :=
  ⟨.refl _, rfl, rfl⟩

def ProcScheme.Alike (before after : ProcScheme) : Prop :=
  ∀ pid, Option.Rel Process.Alike (before.get? pid) (after.get? pid)

theorem optionRel_refl {Value : Type} {relation}
    (reflexive : ∀ value, relation value value) {option : Option Value} :
    Option.Rel relation option option := by
  cases option with
  | none => exact .none
  | some value => exact .some (reflexive value)

theorem ProcScheme.Alike.refl (scheme : ProcScheme) : scheme.Alike scheme :=
  fun _ => optionRel_refl .refl

theorem ProcScheme.Alike.set {scheme : ProcScheme} {pid before after}
    (found : scheme.get? pid = some before) (alike : before.Alike after) :
    scheme.Alike (scheme.set pid after) := by
  intro other
  rw [get?_set]
  split
  next equality =>
    subst equality
    rw [found]
    exact .some alike
  · exact Alike.refl scheme other

/-- A restriction of what the clients of the process manager ask for.  The
source has none; the invariants that its checks do not ensure are proved under
one. -/
structure Policy where
  /-- A thread is added to this process. -/
  newThread : Process → Prop
  /-- A process forks. -/
  fork : ProcessId → Process → Prop
  /-- A process moves to a group other than the one named after it. -/
  regroup : ProcScheme → ProcessId → ProcessId → Prop
  /-- A process starts to exit with this raw status. -/
  exit : ProcessId → Nat → Prop
  /-- The exit of a process completes. -/
  complete : ProcScheme → ProcessId → Prop
  regroup_alike : ∀ {before after : ProcScheme}, before.Alike after →
    ∀ pid pgid, regroup before pid pgid → regroup after pid pgid
  complete_alike : ∀ {before after : ProcScheme}, before.Alike after →
    ∀ pid, complete before pid → complete after pid

abbrev Policy.free : Policy where
  newThread _ := True
  fork _ _ := True
  regroup _ _ _ := True
  exit _ _ := True
  complete _ _ := True
  regroup_alike _ _ _ _ := trivial
  complete_alike _ _ _ := trivial

def Kernel.Covers (kernel : Kernel) (scheme : ProcScheme) : Prop :=
  ∀ pid process, scheme.get? pid = some process → pid ∈ kernel.order

variable {kernel : Kernel}

theorem Kernel.Admits.covers {scheme} (admits : kernel.Admits scheme) : kernel.Covers scheme := by
  intro pid process found
  exact admits.orderCovers pid (scheme.processes.mem_keys_iff |>.mpr ⟨process, found⟩)

theorem Kernel.Covers.set {scheme pid before}
    (covers : kernel.Covers scheme) (found : scheme.get? pid = some before)
    (after : Process) : kernel.Covers (scheme.set pid after) := by
  intro other process otherFound
  rw [get?_set] at otherFound
  split at otherFound
  next equality =>
    subst equality
    exact covers other before found
  · exact covers other process otherFound

/-- Edits of one process; the list holds the requests that wake up. -/
inductive ProcEdit (policy : Policy) (scheme : ProcScheme) (pid : ProcessId) :
    Kind → Process → Process → List VirtualId → Prop where
  | page {before after : Process} (touched : before.Touched after)
      (status : after.status = before.status) :
      ProcEdit policy scheme pid .page before after []
  | touch {before after : Process} (touched : before.Touched after) :
      ProcEdit policy scheme pid .touch before after []
  | creds {before after : Process} (derived : before.CredsFrom after) :
      ProcEdit policy scheme pid .creds before after []
  | record {before child : Process} {childPid : ProcessId} {status : WaitpidStatus}
      (found : scheme.get? childPid = some child) (parent : child.ppid = pid)
      (live : child.status.isTerminating = false) (reported : status.isTerminated = false) :
      ProcEdit policy scheme pid .record before (before.recorded childPid child.pgid status)
        before.waitpidWaiting
  | recordExit {before : Process} (childPid pgid : ProcessId) (signal : Option Nat)
      (code : Nat) :
      ProcEdit policy scheme pid .recordExit before
        (before.recorded childPid pgid (.terminated signal code)) before.waitpidWaiting
  | drain {before : Process} :
      ProcEdit policy scheme pid .drain before { before with waitpidWaiting := [] }
        before.waitpidWaiting
  | register {before : Process} (reqId : VirtualId) :
      ProcEdit policy scheme pid .register before
        { before with waitpidWaiting := before.waitpidWaiting ++ [reqId] } []
  | consume {before : Process} (index : Nat) :
      ProcEdit policy scheme pid .consume before
        { before with waitpid := ⟨before.waitpid.entries.eraseIdx index⟩ } []
  | newThread {before : Process} (thread : Thread) (allowed : policy.newThread before) :
      ProcEdit policy scheme pid .newThread before
        { before with threads := before.threads ++ [thread] } []
  | startExit {before : Process} {signal : Option Nat} {code raw : Nat}
      (decoded : decodeStatus raw = some (code, signal))
      (live : before.status.isTerminating = false) (allowed : policy.exit pid raw) :
      ProcEdit policy scheme pid .startExit before
        { before with status := .exiting signal code } []
  | awaitThreads {before : Process} (reqId : VirtualId) :
      ProcEdit policy scheme pid .awaitThreads before
        { before with awaitingThreadsTerm := before.awaitingThreadsTerm ++ [reqId] } []
  | exited {before : Process} {signal : Option Nat} {code : Nat}
      (exiting : before.status = .exiting signal code) (threadless : before.threads = []) :
      ProcEdit policy scheme pid .exited before { before with status := .exited signal code } []
  | threadDeath {before : Process} (rc : Nat) (notExiting : before.status.isExiting = false) :
      ProcEdit policy scheme pid .threadDeath before (before.dropThread rc) []
  | threadDeathExiting {before : Process} (rc : Nat) :
      ProcEdit policy scheme pid .threadDeath before
        { before.dropThread rc with awaitingThreadsTerm := [] } before.awaitingThreadsTerm

variable {policy : Policy}

theorem ProcEdit.sameKin {scheme pid kind before after added}
    (edit : ProcEdit policy scheme pid kind before after added) : before.SameKin after := by
  cases edit with
  | page touched _ => exact touched.kin
  | touch touched => exact touched.kin
  | creds derived => exact derived.kin
  | _ => exact ⟨rfl, rfl, rfl⟩

inductive Edit (policy : Policy) :
    Kind → ProcScheme.Awakening → ProcScheme.Awakening → Prop where
  | process {scheme : ProcScheme} {awoken added : List VirtualId} {pid : ProcessId}
      {kind : Kind} {before after : Process}
      (found : scheme.get? pid = some before)
      (edit : ProcEdit policy scheme pid kind before after added) :
      Edit policy kind (scheme, awoken) (scheme.set pid after, awoken ++ added)
  | reap {scheme : ProcScheme} {awoken : List VirtualId} (pid : ProcessId) :
      Edit policy .reap (scheme, awoken) (scheme.reap pid, awoken)
  | fork {scheme : ProcScheme} {awoken : List VirtualId} {parentPid : ProcessId}
      {parent : Process} (found : scheme.get? parentPid = some parent)
      (allowed : policy.fork parentPid parent) (thread : Thread) :
      Edit policy .fork (scheme, awoken) (scheme.forked parentPid parent thread, awoken)
  /-- Init is the first process. -/
  | registerInit {scheme : ProcScheme} {awoken : List VirtualId} (thread : Thread)
      (noProcess : ∀ pid, scheme.get? pid = none)
      (noGroup : ∀ grp, scheme.groups.get? grp = none) :
      Edit policy .registerInit (scheme, awoken) (scheme.withInit thread, awoken)
  | regroup {scheme : ProcScheme} {awoken : List VirtualId} {pid newPgid : ProcessId}
      {process : Process} {oldGroup : Pgrp}
      (found : scheme.get? pid = some process)
      (oldFound : scheme.groups.get? process.pgid = some oldGroup)
      (changes : process.pgid ≠ newPgid)
      (allowed : newPgid = pid ∨ (process.sid ≠ pid ∧ scheme.groups.contains newPgid = true ∧
          policy.regroup scheme pid newPgid)) :
      Edit policy .regroup (scheme, awoken)
        (scheme.regrouped pid process.pgid newPgid, awoken)
  /-- A process that is alone in the group named after it starts a session. -/
  | setSid {scheme : ProcScheme} {awoken : List VirtualId} {pid : ProcessId}
      {process : Process} (found : scheme.get? pid = some process)
      (leads : process.pgid = pid)
      (alone : ∀ other member, scheme.get? other = some member → member.pgid = pid → other = pid) :
      Edit policy .setSid (scheme, awoken)
        (scheme.set pid { process with sid := pid }, awoken)
  | reparent {scheme : ProcScheme} {awoken : List VirtualId} (current child : ProcessId) :
      Edit policy .reparent (scheme, awoken)
        (reparent current scheme child, awoken)
  | wait {scheme : ProcScheme} {awoken : List VirtualId} (kernel : Kernel)
      (pid : ProcessId) (target : WaitpidTarget) (flags : WaitFlags) (reqId : VirtualId) :
      Edit policy .wait (scheme, awoken)
        ((scheme.onWaitpid kernel pid target flags reqId).1, awoken)
  | complete {scheme : ProcScheme} {awoken : List VirtualId} {pid : ProcessId}
      {process : Process} {signal : Option Nat} {status : Nat} (kernel : Kernel)
      (covers : kernel.Covers scheme) (found : scheme.get? pid = some process)
      (exiting : process.status = .exiting signal status) (threadless : process.threads = [])
      (allowed : policy.complete scheme pid) :
      Edit policy .complete (scheme, awoken)
        ((scheme.set pid { process with status := .exited signal status }).finishExit kernel
          awoken pid process.ppid process.pgid signal status)
  | handles {scheme : ProcScheme} {awoken : List VirtualId} (handles : Table Nat Handle)
      (initClaimed : Bool) :
      Edit policy .handles (scheme, awoken)
        ({ scheme with handles := handles, initClaimed := initClaimed }, awoken)
  | internal {scheme scheme' : ProcScheme} {awoken : List VirtualId}
      (processes : scheme'.processes = scheme.processes)
      (groups : scheme'.groups = scheme.groups) (handles : scheme'.handles = scheme.handles)
      (initClaimed : scheme'.initClaimed = scheme.initClaimed)
      (nextId : scheme.nextId ≤ scheme'.nextId)
      (nextInternalId : scheme.nextInternalId ≤ scheme'.nextInternalId) :
      Edit policy .internal (scheme, awoken) (scheme', awoken)

def Edits (policy : Policy) (kinds : List Kind) :
    ProcScheme.Awakening → ProcScheme.Awakening → Prop :=
  Relation.ReflTransGen fun before after => ∃ kind ∈ kinds, Edit policy kind before after

variable {kinds : List Kind} {scheme : ProcScheme} {pid : ProcessId} {kind : Kind}
  {first second third : ProcScheme.Awakening}

namespace Edits

theorem refl (state : ProcScheme.Awakening) : Edits policy kinds state state :=
  Relation.ReflTransGen.refl

theorem trans (earlier : Edits policy kinds first second)
    (later : Edits policy kinds second third) : Edits policy kinds first third :=
  Relation.ReflTransGen.trans earlier later

theorem single {kind} (edit : Edit policy kind first second) (allowed : kind ∈ kinds) :
    Edits policy kinds first second :=
  Relation.ReflTransGen.single ⟨kind, allowed, edit⟩

theorem mono {wider} (edits : Edits policy kinds first second) (inside : kinds ⊆ wider) :
    Edits policy wider first second := by
  refine Relation.ReflTransGen.mono ?_ first second edits
  rintro _ _ ⟨kind, allowed, edit⟩
  exact ⟨kind, inside allowed, edit⟩

theorem preserve {motive : ProcScheme.Awakening → Prop} (edits : Edits policy kinds first second)
    (preserved : ∀ kind ∈ kinds, ∀ before after, Edit policy kind before after →
      motive before → motive after)
    (initially : motive first) : motive second := by
  induction edits with
  | refl => exact initially
  | tail _ last ih =>
    rcases last with ⟨kind, allowed, edit⟩
    exact preserved kind allowed _ _ edit ih

theorem foldl {Elem : Type} {State : Type} (view : State → ProcScheme.Awakening)
    (step : State → Elem → State)
    (stepEdits : ∀ state elem, Edits policy kinds (view state) (view (step state elem)))
    (elems : List Elem) (state : State) :
    Edits policy kinds (view state) (view (elems.foldl step state)) := by
  induction elems generalizing state with
  | nil => exact refl _
  | cons elem elems ih =>
    exact (stepEdits state elem).trans (ih _)

theorem process {scheme awoken added pid kind before after} (found : scheme.get? pid = some before)
    (edit : ProcEdit policy scheme pid kind before after added) (allowed : kind ∈ kinds) :
    Edits policy kinds (scheme, awoken) (scheme.set pid after, awoken ++ added) :=
  single (.process found edit) allowed

end Edits

theorem Edit.single {kind first second}
    (edit : Edit policy kind first second) : Edits policy [kind] first second :=
  .single edit (List.mem_singleton_self kind)

namespace ProcScheme

theorem modify_eq_set {f process} (found : scheme.get? pid = some process) :
    scheme.modify pid f = scheme.set pid (f process) := by
  have lookup : scheme.processes.get? pid = some process := found
  simp [modify, set, Table.modify, lookup]

theorem modify_eq_self {f} (missing : scheme.get? pid = none) : scheme.modify pid f = scheme := by
  have lookup : scheme.processes.get? pid = none := missing
  simp [modify, Table.modify, lookup]

theorem set_edits {awoken before after} (found : scheme.get? pid = some before)
    (edit : ProcEdit policy scheme pid kind before after []) (allowed : kind ∈ kinds) :
    Edits policy kinds (scheme, awoken) (scheme.set pid after, awoken) := by
  have single := @Edits.process policy kinds scheme awoken [] pid kind _ _ found edit allowed
  rwa [List.append_nil] at single

/-- Edit a process through `modify`, which passes over a missing one. -/
theorem modify_edits {f awoken} (allowed : kind ∈ kinds)
    (edit : ∀ process, scheme.get? pid = some process →
      ProcEdit policy scheme pid kind process (f process) []) :
    Edits policy kinds (scheme, awoken) (scheme.modify pid f, awoken) := by
  cases found : scheme.get? pid with
  | none =>
    rw [modify_eq_self found]
    exact .refl _
  | some process =>
    rw [modify_eq_set found]
    exact set_edits found (edit process found) allowed

end ProcScheme

end EosBase.Procmgr
