import EosBase.Uds.StreamState
import Mathlib.Logic.Function.Basic

/-!
# Connections as pairs of ends

An open socket is an end: idle, with what it has parked for a listener, or linked
to a peer.  `Sound` says that linked ends face each other and that the end whose
peer is gone knows it.  `Move` is what a request does to the ends.
-/

namespace EosBase.Uds.Stream

open Function Connection Nat

inductive End where
  | idle (connection : Option Connection)
  | linked (connection : Connection)

/-- The open ends by number, and the first number that was never used. -/
structure Net where
  ends : Nat → Option End
  next : Nat

namespace Net

def set (net : Net) (id : Nat) (changed : End) : Net :=
  { net with ends := update net.ends id (some changed) }

def add (net : Net) (new : End) : Net :=
  ⟨update net.ends net.next (some new), net.next + 1⟩

def drop (net : Net) (id : Nat) : Net :=
  { net with ends := update net.ends id none }

/-- A waiting end and a new one are linked; the new one gets what was parked. -/
def join (net : Net) (client : Nat) (connection : Connection) : Net :=
  (net.set client (.linked { connection with peer := net.next, packets := [] })).add
    (.linked { new client with packets := connection.packets })

def part (net : Net) (id : Nat) : Net :=
  match net.ends id with
  | some (.linked connection) =>
    match (net.drop id).ends connection.peer with
    | some (.linked other) =>
      (net.drop id).set connection.peer (.linked { other with isPeerShutdown := true })
    | _ => net.drop id
  | _ => net.drop id

inductive Joins : Net → Net → Prop where
  | refl {net} : Joins net net
  | join {net client connection after} : net.ends client = some (.idle (some connection)) →
      Joins (net.join client connection) after → Joins net after

structure Sound (net : Net) : Prop where
  below : ∀ {id found}, net.ends id = some found → id < net.next
  peer : ∀ {id connection}, net.ends id = some (.linked connection) → connection.peer < net.next
  facing : ∀ {id connection found}, net.ends id = some (.linked connection) →
    net.ends connection.peer = some found → ∃ other, found = .linked other ∧ other.peer = id
  clean : ∀ {id connection}, net.ends id = some (.idle (some connection)) →
    connection.fds = [] ∧ connection.isPeerShutdown = false
  ended : ∀ {id connection}, net.ends id = some (.linked connection) →
    net.ends connection.peer = none → connection.isPeerShutdown = true

variable {net after : Net} {id other : Nat} {changed : End} {connection link : Connection}
  {own replaced : Option Connection}

theorem ends_set : (net.set id changed).ends other =
    if other = id then some changed else net.ends other := by
  unfold set
  dsimp only
  rw [update_apply]

theorem ends_add : (net.add changed).ends other =
    if other = net.next then some changed else net.ends other := by
  unfold add
  dsimp only
  rw [update_apply]

theorem ends_drop : (net.drop id).ends other =
    if other = id then none else net.ends other := by
  unfold drop
  dsimp only
  rw [update_apply]

theorem next_part : (net.part id).next = net.next := by
  unfold part
  split
  · split <;> rfl
  · rfl

namespace Sound

def Answered (id : Nat) (isPeerShutdown : Bool) : Option End → Prop
  | none => isPeerShutdown = true
  | some (.linked other) => other.peer = id
  | some (.idle _) => False

def Fits (net : Net) (id : Nat) : End → Prop
  | .idle own => ∀ connection, own = some connection →
      connection.fds = [] ∧ connection.isPeerShutdown = false
  | .linked connection => connection.peer < net.next ∧
      Answered id connection.isPeerShutdown (net.ends connection.peer)

theorem of_fits (fits : ∀ {id seen}, net.ends id = some seen → id < net.next ∧ Fits net id seen) :
    Sound net where
  below present := (fits present).1
  peer present := (fits present).2.1
  facing {id connection found} present facing := by
    have answered := (fits present).2.2
    rw [facing] at answered
    cases found with
    | idle => exact answered.elim
    | linked other => exact ⟨other, rfl, answered⟩
  clean present := (fits present).2 _ rfl
  ended {id connection} present gone := by
    have answered := (fits present).2.2
    rwa [gone] at answered

section

variable (sound : Sound net)

include sound

theorem fits {seen} (present : net.ends id = some seen) : id < net.next ∧ Fits net id seen := by
  refine ⟨sound.below present, ?_⟩
  cases seen with
  | idle own =>
    rintro connection rfl
    exact sound.clean present
  | linked connection =>
    refine ⟨sound.peer present, ?_⟩
    cases facing : net.ends connection.peer with
    | none => exact sound.ended present facing
    | some found =>
      obtain ⟨other, rfl, back⟩ := sound.facing present facing
      exact back

/-- Only some ends change, and they answer to the others as before. -/
theorem change (changed : Nat → Prop) (more : net.next ≤ after.next)
    (kept : ∀ {other}, ¬ changed other → after.ends other = net.ends other)
    (fits : ∀ {id seen}, changed id → after.ends id = some seen →
      id < after.next ∧ Fits after id seen)
    (answers : ∀ {id other shutdown}, changed id → ¬ changed other → id < net.next →
      Answered other shutdown (net.ends id) → Answered other shutdown (after.ends id)) :
    Sound after := by
  refine of_fits fun {other seen} present => ?_
  by_cases new : changed other
  · exact fits new present
  rw [kept new] at present
  obtain ⟨below, old⟩ := sound.fits present
  refine ⟨below.trans_le more, ?_⟩
  cases seen with
  | idle => exact old
  | linked connection =>
    obtain ⟨peer, answered⟩ := old
    refine ⟨peer.trans_le more, ?_⟩
    by_cases facing : changed connection.peer
    · exact answers facing new peer answered
    · rwa [kept facing]

theorem relink (found : net.ends id = some (.linked connection))
    (peer : link.peer = connection.peer)
    (shutdown : link.isPeerShutdown = connection.isPeerShutdown) :
    Sound (net.set id (.linked link)) := by
  refine sound.change (· = id) le_rfl (fun other => by rw [ends_set, if_neg other]) ?_ ?_
  · rintro _ seen rfl present
    rw [ends_set, if_pos rfl] at present
    cases present
    obtain ⟨below, faces, answered⟩ := sound.fits found
    refine ⟨below, peer ▸ faces, ?_⟩
    rw [ends_set]
    split
    next own => exact own
    · rwa [peer, shutdown]
  · rintro _ other flag rfl _ _ answered
    rw [found] at answered
    rw [ends_set, if_pos rfl]
    exact peer.trans answered

theorem idle (found : net.ends id = some (.idle own))
    (clean : ∀ connection, replaced = some connection →
      connection.fds = [] ∧ connection.isPeerShutdown = false) :
    Sound (net.set id (.idle replaced)) := by
  refine sound.change (· = id) le_rfl (fun other => by rw [ends_set, if_neg other]) ?_ ?_
  · rintro _ seen rfl present
    rw [ends_set, if_pos rfl] at present
    cases present
    exact ⟨sound.below found, clean⟩
  · rintro _ other flag rfl _ _ answered
    rw [found] at answered
    exact answered.elim

theorem add (clean : ∀ connection, replaced = some connection →
      connection.fds = [] ∧ connection.isPeerShutdown = false) :
    Sound (net.add (.idle replaced)) := by
  refine sound.change (· = net.next) (le_succ _) (fun other => by rw [ends_add, if_neg other]) ?_ ?_
  · rintro _ seen rfl present
    rw [ends_add, if_pos rfl] at present
    cases present
    exact ⟨lt_succ_self _, clean⟩
  · rintro _ other flag rfl _ below _
    exact absurd below (lt_irrefl _)

end

theorem ends_join : (net.join id connection).ends other =
      if other = net.next then
        some (.linked { new id with packets := connection.packets })
      else if other = id then some (.linked { connection with peer := net.next, packets := [] })
      else net.ends other := by
  unfold join
  rw [ends_add]
  change (if other = net.next then _ else _) = _
  rw [ends_set]

theorem join (sound : Sound net) (found : net.ends id = some (.idle (some connection))) :
    Sound (net.join id connection) := by
  have below := sound.below found
  have atNew : (net.join id connection).ends net.next =
      some (.linked { new id with packets := connection.packets }) := by
    rw [ends_join, if_pos rfl]
  have atClient : (net.join id connection).ends id =
      some (.linked { connection with peer := net.next, packets := [] }) := by
    rw [ends_join, if_neg below.ne, if_pos rfl]
  refine sound.change (fun other => other = net.next ∨ other = id) (le_succ _) ?_ ?_ ?_
  · intro other same
    rw [ends_join, if_neg (same ∘ .inl), if_neg (same ∘ .inr)]
  · rintro _ seen (rfl | rfl) present
    · cases atNew.symm.trans present
      refine ⟨lt_succ_self _, lt_succ_of_lt below, ?_⟩
      rw [show (_ : Connection).peer = id from rfl, atClient]
      rfl
    · cases atClient.symm.trans present
      refine ⟨lt_succ_of_lt below, lt_succ_self _, ?_⟩
      rw [show (_ : Connection).peer = net.next from rfl, atNew]
      rfl
  · rintro _ other flag (rfl | rfl) _ old answered
    · exact absurd old (lt_irrefl _)
    · rw [found] at answered
      exact answered.elim

theorem joins (joins : Joins net after) (sound : Sound net) : Sound after := by
  induction joins with
  | refl => exact sound
  | join found _ ih => exact ih (sound.join found)

theorem ends_part_self : (net.part id).ends id = none := by
  have dropped : (net.drop id).ends id = none := by rw [ends_drop, if_pos rfl]
  unfold Net.part
  split
  · split
    next facing =>
      rw [ends_set, if_neg, dropped]
      intro same
      rw [← same, dropped] at facing
      cases facing
    · exact dropped
  · exact dropped

/-- Another end is told if the end that is closed faces it, or stays as it is. -/
theorem ends_part_other (different : other ≠ id) :
    (∃ own link, net.ends id = some (.linked own) ∧ own.peer = other ∧
      net.ends other = some (.linked link) ∧
      (net.part id).ends other = some (.linked { link with isPeerShutdown := true })) ∨
    (net.part id).ends other = net.ends other ∧ ∀ own link, net.ends id = some (.linked own) →
      own.peer = other → net.ends other ≠ some (.linked link) := by
  have dropped : (net.drop id).ends other = net.ends other := by rw [ends_drop, if_neg different]
  unfold Net.part
  split
  next own found =>
    split
    next link facing =>
      rw [ends_set]
      by_cases here : other = own.peer
      · rw [← here, dropped] at facing
        exact .inl ⟨own, link, found, here.symm, facing, if_pos here⟩
      · refine .inr ⟨(if_neg here).trans dropped, ?_⟩
        rintro _ _ same rfl
        cases found.symm.trans same
        exact absurd rfl here
    next alone =>
      refine .inr ⟨dropped, ?_⟩
      rintro _ link same rfl
      cases found.symm.trans same
      exact dropped ▸ alone link
  next idle => exact .inr ⟨dropped, fun own _ found => absurd found (idle own)⟩

theorem ends_part {seen} (present : (net.part id).ends other = some seen) :
    other ≠ id ∧ ∃ before, net.ends other = some before ∧
      (seen = before ∨ ∃ link, before = .linked link ∧
        seen = .linked { link with isPeerShutdown := true }) := by
  have different : other ≠ id := by
    rintro rfl
    cases ends_part_self.symm.trans present
  refine ⟨different, ?_⟩
  rcases ends_part_other different with ⟨_, link, _, _, found, told⟩ | ⟨same, _⟩
  · cases told.symm.trans present
    exact ⟨_, found, .inr ⟨link, rfl, rfl⟩⟩
  · exact ⟨seen, same.symm.trans present, .inl rfl⟩

theorem ends_part_none (gone : (net.part id).ends other = none) :
    other = id ∨ net.ends other = none := by
  by_cases same : other = id
  · exact .inl same
  rcases ends_part_other same with ⟨_, _, _, _, _, told⟩ | ⟨same, _⟩
  · cases told.symm.trans gone
  · exact .inr (same.symm.trans gone)

theorem part (sound : Sound net) : Sound (net.part id) := by
  refine sound.change (fun other => other = id ∨ ∃ own, net.ends id = some (.linked own) ∧
    own.peer = other) next_part.ge ?_ ?_ ?_
  · intro other same
    rcases ends_part_other (same ∘ .inl) with ⟨own, _, found, faces, _⟩ | ⟨unchanged, _⟩
    · exact absurd (.inr ⟨own, found, faces⟩) same
    · exact unchanged
  · rintro other seen which present
    have different := (ends_part present).1
    obtain ⟨own, found, rfl⟩ := which.resolve_left different
    rcases ends_part_other different with ⟨_, link, same, _, facing, told⟩ | ⟨unchanged, alone⟩
    · cases told.symm.trans present
      obtain ⟨_, equal, back⟩ := sound.facing found facing
      cases equal
      have below := sound.below facing
      have peer := sound.peer facing
      rw [← @next_part net id] at below peer
      refine ⟨below, peer, ?_⟩
      rw [show _ = id from back, ends_part_self]
      rfl
    · rw [unchanged] at present
      obtain ⟨link, rfl, _⟩ := sound.facing found present
      exact absurd present (alone own link found rfl)
  · rintro closed other flag _ unchanged _ answered
    by_cases same : closed = id
    · subst same
      rw [ends_part_self]
      cases found : net.ends closed with
      | none => rwa [found] at answered
      | some seen =>
        rw [found] at answered
        cases seen with
        | idle => exact answered.elim
        | linked own => exact absurd (.inr ⟨own, found, answered⟩) unchanged
    · rcases ends_part_other same with ⟨_, link, _, _, facing, told⟩ | ⟨kept, _⟩
      · rw [facing] at answered
        rw [told]
        exact answered
      · rwa [kept]

end Sound

end Net

end EosBase.Uds.Stream
