import EosBase.Procmgr.Family
import EosBase.Procmgr.Identity

/-!
# The fate of a process

What a process exits with is decided when its exit starts, by the request or the
thread death that asks for it, and is final from then on.
-/

namespace EosBase.Procmgr

open ProcScheme

/-- What a process exits with, as soon as that is decided. -/
def ProcessStatus.fate? : ProcessStatus → Option Exit
  | exiting signal status => some (signal, status)
  | exited signal status => some (signal, status)
  | _ => none

/-- The changes of status: between running and stopped, then to `Exiting`, then
to `Exited` with the same signal and status. -/
def ProcessStatus.Leads : ProcessStatus → ProcessStatus → Prop
  | .exited signal status, after => after = .exited signal status
  | .exiting signal status, after =>
    after = .exiting signal status ∨ after = .exited signal status
  | _, _ => True

namespace ProcessStatus

theorem Leads.refl (status : ProcessStatus) : status.Leads status := by
  cases status with
  | exiting => exact .inl rfl
  | exited => rfl
  | _ => trivial

theorem Leads.of_live {before : ProcessStatus} (live : before.isTerminating = false)
    {after} : before.Leads after := by
  cases before with
  | exiting => cases live
  | exited => cases live
  | _ => trivial

theorem Leads.trans {first second third : ProcessStatus} (earlier : first.Leads second)
    (later : second.Leads third) : first.Leads third := by
  cases first with
  | exited signal status =>
    cases earlier
    exact later
  | exiting signal status =>
    rcases earlier with rfl | rfl
    · exact later
    · exact .inr later
  | _ => trivial

end ProcessStatus

variable {policy : Policy} {kind : Kind} {before after : Process} {pid : ProcessId} {exit : Exit}
  {manager manager' : Manager} {event : Event}

theorem Process.Touched.leads (touched : before.Touched after) :
    before.status.Leads after.status := by
  rcases touched.status with same | ⟨live, -⟩
  · rw [same]
    exact .refl _
  · exact .of_live live

theorem Evolves.leads {added scheme} (evolves : Evolves policy kind scheme pid before after added) :
    before.status.Leads after.status := by
  cases evolves with
  | same | regrouped | session | adopted | adopts => exact .refl _
  | edit edit =>
    cases edit with
    | page touched | touch touched => exact touched.leads
    | creds derived =>
      rw [derived.status]
      exact .refl _
    | startExit _ live _ => exact .of_live live
    | exited exiting _ =>
      rw [exiting]
      exact .inr rfl
    | _ => exact .refl _

theorem Evolves.fate {added scheme} (evolves : Evolves policy kind scheme pid before after added)
    (decided : after.status.fate? = some exit) :
    before.status.fate? = some exit ∨
      ∃ raw, policy.exit pid raw ∧ decodeStatus raw = some (exit.2, exit.1) := by
  have touched : before.Touched after → before.status.fate? = some exit := by
    intro touched
    rcases touched.status with same | ⟨-, live⟩
    · rw [← same]
      exact decided
    cases statusEq : after.status with
    | exiting | exited =>
      rw [statusEq] at live
      cases live
    | possiblyRunnable | stopped =>
      rw [statusEq] at decided
      cases decided
  cases evolves with
  | same | regrouped | session | adopted | adopts => exact .inl decided
  | edit edit =>
    cases edit with
    | page changed | touch changed => exact .inl (touched changed)
    | creds derived =>
      rw [derived.status] at decided
      exact .inl decided
    | startExit decoded _ allowed =>
      cases decided
      exact .inr ⟨_, allowed, decoded⟩
    | exited exiting _ =>
      rw [exiting]
      exact .inl decided
    | _ => exact .inl decided

namespace Manager

theorem decided_step {output} (reached : procmgr.Reachable manager)
    (stepped : manager.step event = some (manager', output))
    (afterFound : manager'.scheme.get? pid = some after)
    (decided : after.status.fate? = some exit) :
    (∃ before, manager.scheme.get? pid = some before ∧ before.status.fate? = some exit) ∨
      ∃ raw, manager.exitTarget event = some (pid, raw) ∧
        decodeStatus raw = some (exit.2, exit.1) := by
  -- The edits of this step start no exit but the one that the event asks for.
  let policy : Policy :=
    { Policy.free with exit := fun pid raw => manager.exitTarget event = some (pid, raw) }
  have allowed : policy.Allows manager event :=
    ⟨fun _ _ _ _ => trivial, fun _ _ _ _ => trivial, fun _ _ _ => .inr trivial,
      fun _ _ target => target, fun _ _ => trivial⟩
  obtain ⟨awoken, edits, -⟩ := reachable_edits reached allowed stepped
  let Decided (pid : ProcessId) (process : Process) : Prop := ∀ exit,
    process.status.fate? = some exit →
      (∃ before, manager.scheme.get? pid = some before ∧ before.status.fate? = some exit) ∨
        ∃ raw, manager.exitTarget event = some (pid, raw) ∧
          decodeStatus raw = some (exit.2, exit.1)
  have all := edits.preserveSmall (motive := fun state => ∀ pid process,
    state.1.get? pid = some process → Decided pid process) ?_ ?_
  · exact all pid after afterFound exit decided
  · intro kind _ first second edit small
    refine edit.forallProcess small ?_ ?_ ?_
    · intro thread exit decided
      cases decided
    · intro parent parentPid childPid thread exit decided
      cases decided
    · intro pid old new added evolves oldDecided exit decided
      rcases evolves.fate decided with earlier | starts
      · exact oldDecided exit earlier
      · exact .inr starts
  · intro pid process found exit decided
    exact .inl ⟨process, found, decided⟩

theorem leads_step {output} (reached : procmgr.Reachable manager)
    (stepped : manager.step event = some (manager', output))
    (found : manager.scheme.get? pid = some before)
    (afterFound : manager'.scheme.get? pid = some after) : before.status.Leads after.status := by
  have known := known_of_found reached found
  obtain ⟨awoken, edits, -⟩ :=
    later_edits known.registered Policy.free_allows stepped
  refine edits.preserveProcess (motive := fun process => before.status.Leads process.status)
    registerInit_not_later known.used ?_ ?_ after afterFound
  · intro kind _ scheme old new added evolves leads
    exact leads.trans evolves.leads
  · intro process processFound
    cases found.symm.trans processFound
    exact .refl _

theorem leads_path {allowed origin state history} (path : procmgr.Path allowed origin history state)
    (reached : procmgr.ReachableWhile allowed origin)
    (found : origin.scheme.get? pid = some before) :
    state.Known pid ∧ ∀ after, state.scheme.get? pid = some after →
      before.status.Leads after.status := by
  induction path with
  | start =>
    refine ⟨known_of_found reached.reachable found, ?_⟩
    intro after afterFound
    rw [found, Option.some.injEq] at afterFound
    rw [afterFound]
    exact .refl _
  | @step _ between _ _ _ earlier _ stepped ih =>
    obtain ⟨known, leads⟩ := ih
    have here := (reached.path earlier).reachable
    obtain ⟨knownAfter, stays⟩ := known.step here stepped
    refine ⟨knownAfter, ?_⟩
    intro after afterFound
    cases betweenEq : between.scheme.get? pid with
    | none => cases (stays betweenEq).symm.trans afterFound
    | some middle =>
      exact (leads middle betweenEq).trans (leads_step here stepped betweenEq afterFound)

end Manager

end EosBase.Procmgr
