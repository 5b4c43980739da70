import EosBase.Lib.Transition

/-!
# Routing by the longest prefix

The rules are sorted by the length of their prefix, and the last one that contains a
destination is taken.  Networks and addresses are those of the wire library: any types
with a prefix length and a test whether a network contains an address.
-/

namespace EosBase.Netstack

open List

structure Rule (Cidr Address : Type) where
  filter : Cidr
  via : Option Address
  dev : String
  src : Address

/-- What a binary search returns. -/
inductive Search where
  | ok (i : Nat)
  | err (i : Nat)

namespace Search

def index : Search → Nat
  | ok i | err i => i

/-- The contract of a binary search: any place of the key, or the one where it belongs. -/
def Answers (keys : List Nat) (key : Nat) : Search → Prop
  | ok i => keys[i]? = some key
  | err i => i ≤ keys.length ∧ (∀ other ∈ keys.take i, other < key) ∧
    ∀ other ∈ keys.drop i, key < other

instance (keys : List Nat) (key : Nat) (found : Search) : Decidable (found.Answers keys key) := by
  cases found <;> unfold Answers <;> infer_instance

variable {key : Nat}

theorem splits {keys} {found : Search} (sorted : keys.Pairwise (· ≤ ·))
    (answers : found.Answers keys key) :
    (∀ other ∈ keys.take found.index, other ≤ key) ∧
      ∀ other ∈ keys.drop found.index, key ≤ other := by
  cases found with
  | err i =>
    obtain ⟨_, below, above⟩ := answers
    exact ⟨fun other member => (below other member).le, fun other member => (above other member).le⟩
  | ok i =>
    obtain ⟨inside, same⟩ := List.getElem?_eq_some_iff.mp answers
    have rest : keys.drop i = key :: keys.drop (i + 1) := by
      rw [drop_eq_getElem_cons inside, same]
    rw [← take_append_drop i keys, rest] at sorted
    obtain ⟨_, after, between⟩ := pairwise_append.mp sorted
    refine ⟨fun other member => between other member key mem_cons_self, ?_⟩
    intro other member
    rw [index, rest] at member
    rcases mem_cons.mp member with rfl | later
    · exact le_rfl
    · exact rel_of_pairwise_cons after later

/-- There is an answer in every sorted list. -/
theorem answers_exists {keys} (sorted : keys.Pairwise (· ≤ ·)) :
    ∃ found : Search, found.Answers keys key := by
  induction keys with
  | nil => exact ⟨.err 0, by simp [Answers]⟩
  | cons first rest ih =>
    obtain ⟨above, sorted⟩ := pairwise_cons.mp sorted
    rcases Nat.lt_trichotomy first key with less | rfl | greater
    · obtain ⟨found, answers⟩ := ih sorted
      cases found with
      | ok i => exact ⟨.ok (i + 1), answers⟩
      | err i =>
        refine ⟨.err (i + 1), Nat.succ_le_succ answers.1, ?_, answers.2.2⟩
        exact forall_mem_cons.mpr ⟨less, answers.2.1⟩
    · exact ⟨.ok 0, rfl⟩
    · refine ⟨.err 0, Nat.zero_le _, by simp, forall_mem_cons.mpr ⟨greater, ?_⟩⟩
      exact fun other member => greater.trans_le (above other member)

end Search

section

variable {Cidr Address : Type} (prefixLen : Cidr → Nat) (containsAddr : Cidr → Address → Bool)
  (rules : List (Rule Cidr Address))

def lengths : List Nat :=
  rules.map fun rule => prefixLen rule.filter

def lookupRule (dst : Address) : Option (Rule Cidr Address) :=
  rules.reverse.find? fun rule => containsAddr rule.filter dst

/-- A new rule goes where the search ended, whether its length was found or not. -/
def insertRule (newRule : Rule Cidr Address) (found : Search) : List (Rule Cidr Address) :=
  rules.take found.index ++ newRule :: rules.drop found.index

def removeRule [DecidableEq Cidr] (filter : Cidr) : List (Rule Cidr Address) :=
  rules.filter fun rule => rule.filter ≠ filter

def changeSrc [DecidableEq Address] (oldSrc newSrc : Address) : List (Rule Cidr Address) :=
  rules.map fun rule => if rule.src = oldSrc then { rule with src := newSrc } else rule

inductive RouteEvent (Cidr Address : Type) where
  | insertRule (newRule : Rule Cidr Address) (found : Search)
  | removeRule (filter : Cidr)
  | changeSrc (oldSrc newSrc : Address)

/-- The table, which starts empty.  The search is free among the answers it may give. -/
def routeTable [DecidableEq Cidr] [DecidableEq Address] :
    System (List (Rule Cidr Address)) (RouteEvent Cidr Address) Empty where
  start := []
  step rules
    | .insertRule newRule found =>
      if found.Answers (lengths prefixLen rules) (prefixLen newRule.filter) then
        some (insertRule rules newRule found, none)
      else none
    | .removeRule filter => some (removeRule rules filter, none)
    | .changeSrc oldSrc newSrc => some (changeSrc rules oldSrc newSrc, none)

variable {prefixLen} {rules}

theorem lengths_changeSrc [DecidableEq Address] {oldSrc newSrc} :
    lengths prefixLen (changeSrc rules oldSrc newSrc) = lengths prefixLen rules := by
  unfold lengths changeSrc
  rw [map_map]
  apply map_congr_left
  intro rule _
  dsimp only [Function.comp]
  split <;> rfl

theorem sorted_insertRule {newRule found} (sorted : (lengths prefixLen rules).Pairwise (· ≤ ·))
    (answers : found.Answers (lengths prefixLen rules) (prefixLen newRule.filter)) :
    (lengths prefixLen (insertRule rules newRule found)).Pairwise (· ≤ ·) := by
  obtain ⟨below, above⟩ := Search.splits sorted answers
  rw [← take_append_drop found.index (lengths prefixLen rules)] at sorted
  obtain ⟨front, back, between⟩ := pairwise_append.mp sorted
  simp only [lengths, insertRule, map_append, map_take, map_cons, map_drop]
  refine pairwise_append.mpr ⟨front, pairwise_cons.mpr ⟨above, back⟩, ?_⟩
  intro first member
  exact forall_mem_cons.mpr ⟨below first member, between first member⟩

theorem routeTable_sorted [DecidableEq Cidr] [DecidableEq Address]
    (reached : (routeTable prefixLen).Reachable rules) :
    (lengths prefixLen rules).Pairwise (· ≤ ·) := by
  apply reached.invariant
  · exact .nil
  intro before event after output _ sorted _ stepped
  cases event with
  | insertRule newRule found =>
    simp only [routeTable] at stepped
    split at stepped
    next answers =>
      cases stepped
      exact sorted_insertRule sorted answers
    · cases stepped
  | removeRule filter =>
    cases stepped
    exact sorted.sublist (filter_sublist.map _)
  | changeSrc oldSrc newSrc =>
    cases stepped
    rw [lengths_changeSrc]
    exact sorted

theorem lookupRule_longest {dst rule} (sorted : (lengths prefixLen rules).Pairwise (· ≤ ·))
    (found : lookupRule containsAddr rules dst = some rule) :
    rule ∈ rules ∧ containsAddr rule.filter dst = true ∧
      ∀ other ∈ rules, containsAddr other.filter dst = true →
        prefixLen other.filter ≤ prefixLen rule.filter := by
  obtain ⟨contains, later, earlier, split, unmatched⟩ := find?_eq_some_iff_append.mp found
  have whole : rules = earlier.reverse ++ rule :: later.reverse := by
    rw [← reverse_reverse rules, split]
    simp
  refine ⟨by simp [whole], contains, ?_⟩
  intro other member matched
  rw [lengths, pairwise_map, whole] at sorted
  rw [whole] at member
  rcases mem_append.mp member with front | back
  · exact (pairwise_append.mp sorted).2.2 other front rule mem_cons_self
  rcases mem_cons.mp back with rfl | skipped
  · exact le_rfl
  · have missed := unmatched other (mem_reverse.mp skipped)
    simp [matched] at missed

end

/-- Whatever was done to the table, its rules are sorted, the next rule finds its place, and
a lookup returns a rule of the longest prefix that contains the destination. -/
theorem routes_longest_prefix {Cidr Address : Type} [DecidableEq Cidr] [DecidableEq Address]
    (prefixLen : Cidr → Nat) (containsAddr : Cidr → Address → Bool)
    {rules : List (Rule Cidr Address)} (reached : (routeTable prefixLen).Reachable rules) :
    (lengths prefixLen rules).Pairwise (· ≤ ·) ∧
    (∀ newRule : Rule Cidr Address, ∃ found : Search,
      found.Answers (lengths prefixLen rules) (prefixLen newRule.filter)) ∧
    ∀ dst, (∀ rule, lookupRule containsAddr rules dst = some rule →
      rule ∈ rules ∧ containsAddr rule.filter dst = true ∧
        ∀ other ∈ rules, containsAddr other.filter dst = true →
          prefixLen other.filter ≤ prefixLen rule.filter) ∧
      (lookupRule containsAddr rules dst = none ↔
        ∀ rule ∈ rules, containsAddr rule.filter dst = false) := by
  have sorted := routeTable_sorted reached
  refine ⟨sorted, fun newRule => Search.answers_exists sorted, fun dst => ⟨?_, ?_⟩⟩
  · intro rule found
    exact lookupRule_longest containsAddr sorted found
  · simp [lookupRule, find?_eq_none]

/-- Does an IPv4 network, an address and a prefix length, contain an address? -/
def ipv4Contains (cidr : Nat × Nat) (address : Nat) : Bool :=
  cidr.1 / 2 ^ (32 - cidr.2) = address / 2 ^ (32 - cidr.2)

/-- Both rules contain 10.0.0.1, and the one for 10.0.0.0/8 is taken. -/
theorem routes_longest_prefix_two : ∃ rules : List (Rule (Nat × Nat) Nat), ∃ rule,
    (routeTable Prod.snd).Reachable rules ∧
      lookupRule ipv4Contains rules 0x0A000001 = some rule ∧ rule.filter = (0x0A000000, 8) ∧
      (∀ other ∈ rules, ipv4Contains other.filter 0x0A000001 = true ∧ other.filter.2 ≤ 8) ∧
      rules.length = 2 := by
  obtain ⟨rules, two, found, contained, filled⟩ : ∃ rules : List (Rule (Nat × Nat) Nat),
      (routeTable Prod.snd).Reachable rules ∧
        ((lookupRule ipv4Contains rules 0x0A000001).map Rule.filter = some (0x0A000000, 8) ∧
          (∀ other ∈ rules, ipv4Contains other.filter 0x0A000001 = true) ∧ rules.length = 2) := by
    apply System.reaches_replay [.insertRule ⟨(0x0A000000, 8), none, "eth0", 1⟩ (.err 0),
      .insertRule ⟨(0, 0), some 2, "eth0", 1⟩ (.err 0)]
    decide +kernel
  obtain ⟨rule, taken, filter⟩ := Option.map_eq_some_iff.mp found
  have longest := (( routes_longest_prefix Prod.snd ipv4Contains two).2.2 0x0A000001).1 rule taken
  rw [filter] at longest
  exact ⟨rules, rule, two, taken, filter,
    fun other member => ⟨contained other member, longest.2.2 other member (contained other member)⟩,
    filled⟩

end EosBase.Netstack
