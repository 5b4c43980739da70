import EosBase.Procmgr.Edits

/-!
# The family tree

An abstract model of what waits and exits are about: who is whose parent, who
has exited and how, and what each process can still learn about others.  It
knows nothing of threads, signals, groups or the shape of the wait maps.  The
steps below are those of the source; that the process manager takes no others
is proved separately.
-/

namespace EosBase.Procmgr

abbrev Exit := Option Nat × Nat

def Exit.report (exit : Exit) : WaitpidStatus := .terminated exit.1 exit.2

variable {exit : Exit}

theorem Exit.report_isTerminated : exit.report.isTerminated = true := rfl

theorem Exit.report_injective {first second : Exit} (same : first.report = second.report) :
    first = second := by
  simp only [Exit.report, WaitpidStatus.terminated.injEq] at same
  exact Prod.ext same.1 same.2

@[ext]
structure Family where
  /-- The next process gets this identifier. -/
  next : ProcessId
  /-- The parent of each process; a process that is not there has none. -/
  parent : ProcessId → Option ProcessId
  exit : ProcessId → Option Exit
  /-- The first process can learn this status of the second one. -/
  holds : ProcessId → ProcessId → WaitpidStatus → Prop

namespace Family

def grow (family : Family) (next : ProcessId) : Family :=
  { family with next := next }

def record (family : Family) (waiter child : ProcessId) (status : WaitpidStatus) : Family :=
  { family with
    holds := fun holder named other =>
      if holder = waiter ∧ named = child then other = status
      else family.holds holder named other }

def draw (family : Family) (waiter child : ProcessId) : Family :=
  { family with
    holds := fun holder named status =>
      ¬ (holder = waiter ∧ named = child) ∧ family.holds holder named status }

def exited (family : Family) (pid : ProcessId) (exit : Exit) : Family :=
  { family with exit := fun other => if other = pid then some exit else family.exit other }

def remove (family : Family) (pid : ProcessId) : Family :=
  { family with
    parent := fun other => if other = pid then none else family.parent other
    exit := fun other => if other = pid then none else family.exit other
    holds := fun holder named status => holder ≠ pid ∧ family.holds holder named status }

def adopt (family : Family) (child : ProcessId) : Family :=
  { family with
    parent := fun other => if other = child then some initPid else family.parent other
    holds := fun holder named status =>
      if holder = initPid then
        family.holds child named status ∨
          ((∀ other, ¬ family.holds child named other) ∧ family.holds initPid named status)
      else holder ≠ child ∧ family.holds holder named status }

def fork (family : Family) (parentPid : ProcessId) : Family :=
  { family with
    next := family.next + 1
    parent := fun other => if other = family.next then some parentPid else family.parent other }

def register (family : Family) : Family :=
  { family with
    parent := fun other => if other = initPid then some initPid else family.parent other }

inductive Quiet (family : Family) : Family → Prop where
  | grow {next : ProcessId} (larger : family.next ≤ next) : Quiet family (family.grow next)
  | record {waiter child : ProcessId} {status : WaitpidStatus}
      (isChild : family.parent child = some waiter) (present : family.parent waiter ≠ none)
      (live : family.exit child = none) (reported : status.isTerminated = false) :
      Quiet family (family.record waiter child status)

/-- The children of a process are handed over one by one. -/
inductive Hand (pid : ProcessId) (family : Family) : Family → Prop where
  | grow {next : ProcessId} (larger : family.next ≤ next) : Hand pid family (family.grow next)
  | adopt {child : ProcessId} (notInit : child ≠ initPid)
      (isChild : family.parent child = some pid) (present : family.parent initPid ≠ none) :
      Hand pid family (family.adopt child)

def Childless (family : Family) (pid : ProcessId) : Prop :=
  ∀ child, child ≠ initPid → family.parent child ≠ some pid

/-- The completion of an exit.  The parent learns of it at the end, unless it is
not there. -/
inductive Completes (family : Family) (pid : ProcessId) (exit : Exit) : Family → Prop where
  | alone {ppid : ProcessId} (parent : family.parent pid = some ppid)
      (missing : family.parent ppid = none) : Completes family pid exit (family.exited pid exit)
  | recorded {ppid : ProcessId} {given released : Family}
      (parent : family.parent pid = some ppid) (present : family.parent ppid ≠ none)
      (handed : Relation.ReflTransGen (Hand pid) (family.exited pid exit) given)
      (all : given.parent initPid = none ∨ pid = initPid ∨ given.Childless pid)
      (release : Relation.ReflTransGen Quiet given released) :
      Completes family pid exit (released.record ppid pid exit.report)

inductive Draws (family : Family) (waiter child : ProcessId) (status : WaitpidStatus) : Prop where
  | entry (holds : family.holds waiter child status)
  | child {exit : Exit} (isChild : family.parent child = some waiter) (other : waiter ≠ child)
      (exited : family.exit child = some exit) (report : status = exit.report)

structure Rules where
  fork : Family → ProcessId → Prop
  complete : Family → ProcessId → Prop
  /-- Exited processes may have threads, and then stay when they are waited for. -/
  late : Prop

inductive Step (rules : Rules) (family : Family) : Family → Prop where
  | quiet {family' : Family} (quiet : family.Quiet family') : Step rules family family'
  | fork {parentPid : ProcessId} (present : family.parent parentPid ≠ none)
      (allowed : rules.fork family parentPid) : Step rules family (family.fork parentPid)
  | register (nobody : ∀ pid, family.parent pid = none) : Step rules family family.register
  /-- A wait takes a status other than an exit. -/
  | drawn {waiter child : ProcessId} {status : WaitpidStatus}
      (present : family.parent waiter ≠ none) (draws : family.Draws waiter child status)
      (reported : status.isTerminated = false) : Step rules family (family.draw waiter child)
  | reaped {waiter child : ProcessId} {exit : Exit} (present : family.parent waiter ≠ none)
      (draws : family.Draws waiter child exit.report) :
      Step rules family ((family.draw waiter child).remove child)
  /-- A wait takes an exit, but the process is not removed. -/
  | kept {waiter child : ProcessId} {exit : Exit} (present : family.parent waiter ≠ none)
      (draws : family.Draws waiter child exit.report)
      (busy : family.exit child = none ∨ rules.late) :
      Step rules family (family.draw waiter child)
  | completes {family' : Family} {pid : ProcessId} {exit : Exit}
      (live : family.exit pid = none) (allowed : rules.complete family pid)
      (completes : family.Completes pid exit family') : Step rules family family'

/-- Parents are older than their children, one status is stored for each
process, and who is not there has not exited and holds nothing. -/
structure Orderly (family : Family) : Prop where
  below : ∀ pid, family.parent pid ≠ none → pid < family.next
  older : ∀ pid ppid, family.parent pid = some ppid →
    (pid = initPid ∧ ppid = initPid) ∨ (initPid < pid ∧ initPid ≤ ppid ∧ ppid < pid)
  unique : ∀ holder named first second, family.holds holder named first →
    family.holds holder named second → first = second
  exit_present : ∀ pid, family.exit pid ≠ none → family.parent pid ≠ none
  holds_present : ∀ holder named status, family.holds holder named status →
    family.parent holder ≠ none

structure Settling (pid ppid : ProcessId) (exit : Exit) (family : Family) : Prop where
  below : pid < family.next
  older : ∀ pid ppid, family.parent pid = some ppid →
    (pid = initPid ∧ ppid = initPid) ∨ (initPid < pid ∧ initPid ≤ ppid ∧ ppid < pid)
  parent : family.parent pid = some ppid
  exited : family.exit pid = some exit

namespace Settling

variable {pid ppid : ProcessId} {family family' : Family}

theorem start (orderly : family.Orderly) (parent : family.parent pid = some ppid) :
    Settling pid ppid exit (family.exited pid exit) where
  below := orderly.below pid (by simp [parent])
  older := orderly.older
  parent := parent
  exited := by simp [Family.exited]

section

variable (settling : Settling pid ppid exit family)

include settling

theorem quiet (quiet : family.Quiet family') :
    Settling pid ppid exit family' := by
  cases quiet with
  | grow larger =>
    exact ⟨settling.below.trans_le larger, settling.older, settling.parent, settling.exited⟩
  | record => exact ⟨settling.below, settling.older, settling.parent, settling.exited⟩

theorem ne_child {child}
    (notInit : child ≠ initPid) (isChild : family.parent child = some pid) : child ≠ pid := by
  rintro rfl
  rcases settling.older child child isChild with ⟨isInit, -⟩ | ⟨-, -, older⟩
  · exact notInit isInit
  · exact lt_irrefl _ older

theorem hand (hand : Hand pid family family') :
    Settling pid ppid exit family' := by
  cases hand with
  | grow larger =>
    exact ⟨settling.below.trans_le larger, settling.older, settling.parent, settling.exited⟩
  | @adopt child notInit isChild _ =>
    have other := (settling.ne_child notInit isChild).symm
    refine ⟨settling.below, ?_, by simpa [Family.adopt, other] using settling.parent,
      settling.exited⟩
    intro named namedParent parent
    by_cases same : named = child
    · subst same
      simp only [Family.adopt, if_true, Option.some.injEq] at parent
      subst parent
      rcases settling.older named pid isChild with ⟨isInit, -⟩ | ⟨above, -, -⟩
      · exact absurd isInit notInit
      · exact .inr ⟨above, le_rfl, above⟩
    · simp only [Family.adopt, same, if_false] at parent
      exact settling.older named namedParent parent

end

end Settling

/-- To follow a completed exit: `Open` holds from the change of status to the
end of the loop over the children, and `Done` from then on. -/
theorem Completes.rule {pid} {family family' : Family}
    {motive : Family → Prop} (completes : family.Completes pid exit family')
    (orderly : family.Orderly) (Open Done : Family → Prop)
    (alone : ∀ ppid, Settling pid ppid exit (family.exited pid exit) →
      family.parent ppid = none → motive (family.exited pid exit))
    (start : ∀ ppid, family.parent pid = some ppid → family.parent ppid ≠ none →
      Open (family.exited pid exit))
    (hand : ∀ ppid before after, Settling pid ppid exit before → Hand pid before after →
      Open before → Open after) (close : ∀ ppid given, Settling pid ppid exit given → Open given →
      (given.parent initPid = none ∨ pid = initPid ∨ given.Childless pid) → Done given)
    (release : ∀ ppid before after, Settling pid ppid exit before → before.Quiet after →
      Done before → Done after)
    (record : ∀ ppid released, Settling pid ppid exit released → Done released →
      motive (released.record ppid pid exit.report)) : motive family' := by
  cases completes with
  | alone parent missing => exact alone _ (.start orderly parent) missing
  | @recorded ppid given released parent present handed all release' =>
    -- First along the loop over the children, then along the reports.
    have handedOver : ∀ later, Relation.ReflTransGen (Hand pid) (family.exited pid exit) later →
        Settling pid ppid exit later ∧ Open later := by
      intro later handed
      induction handed with
      | refl => exact ⟨.start orderly parent, start ppid parent present⟩
      | tail _ last ih =>
        obtain ⟨settling, isOpen⟩ := ih
        exact ⟨settling.hand last, hand ppid _ _ settling last isOpen⟩
    have releasedAll : ∀ later, Relation.ReflTransGen Quiet given later →
        Settling pid ppid exit later ∧ Done later := by
      intro later released
      induction released with
      | refl =>
        obtain ⟨settling, isOpen⟩ := handedOver given handed
        exact ⟨settling, close ppid given settling isOpen all⟩
      | tail _ last ih =>
        obtain ⟨settling, done⟩ := ih
        exact ⟨settling.quiet last, release ppid _ _ settling last done⟩
    obtain ⟨settling, done⟩ := releasedAll released release'
    exact record ppid released settling done

end Family

end EosBase.Procmgr
