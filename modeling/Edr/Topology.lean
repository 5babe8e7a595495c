import Edr.Time

/-!
# The view of a topology by domains

`buildTopologyDomainView` shows the targets of a domain as one, unless the domain is expanded, and
adds up the edges that are the same then. It finds them by a text, in which the endpoint, the target
and the protocol are joined by bars. As these may be in a target or a protocol too, it may be the same
text for different edges.
-/

namespace Edr.Topology

open List Function Nat

/-! ## The code -/

/-- `TopologyEdgeDto`, with the time that `lastSeenAt` denotes. -/
structure TopologyEdge where
  endpointId : Nat
  sourceLabel : String
  target : String
  protocol : String
  eventCount : Nat
  alertCount : Nat
  lastSeenAt : Time

/-- `topologyEdgeId`. -/
def topologyEdgeId (endpointId : Nat) (target protocol : String) : String :=
  toString endpointId ++ "|" ++ target ++ "|" ++ protocol

/-- `compareTopologyEdges`, where `localeCompare` is that of texts. -/
def compareTopologyEdges (localeCompare : String → String → Int) (left right : TopologyEdge) : Int :=
  let differences : List Int := [right.alertCount - left.alertCount,
    right.eventCount - left.eventCount, right.lastSeenAt - left.lastSeenAt,
    left.endpointId - right.endpointId, localeCompare left.target right.target,
    localeCompare left.protocol right.protocol]
  (differences.find? (· ≠ 0)).getD 0

/-- `TopologyDomainGroup`. -/
structure TopologyDomainGroup where
  domain : String
  targets : List String

section

variable (registrableDomainForTarget : String → Option String)
  (localeCompare : String → String → Int)

/-- The code units of a text, by which `sort` compares. -/
def codeUnits (text : String) : List Nat :=
  text.toList.flatMap fun c =>
    let n := c.toNat
    if n < 0x10000 then [n]
    else [0xD800 + (n - 0x10000) / 0x400, 0xDC00 + (n - 0x10000) % 0x400]

/-- The domain of a target, if it is not empty. -/
def domainOf (target : String) : Option String := (registrableDomainForTarget target).filter (· ≠ "")

/-- The domains that have more than one target. A `Map` and a `Set` have their keys in the order in
    which they were first inserted. -/
def domainGroups (edges : List TopologyEdge) : List TopologyDomainGroup :=
  let domains :=
    (edges.filterMap fun edge => domainOf registrableDomainForTarget edge.target).eraseDups
  let groups := domains.map fun domain => .mk domain
    (((edges.map (·.target)).filter fun target =>
      decide (domainOf registrableDomainForTarget target = some domain)).eraseDups.mergeSort
        fun left right => decide (codeUnits left ≤ codeUnits right))
  (groups.filter fun group => 1 < group.targets.length).mergeSort
    fun left right => localeCompare left.domain right.domain ≤ 0

/-- The target that an edge is shown with. -/
def displayedTarget (groups : List TopologyDomainGroup) (expandedDomains : List String)
    (target : String) : String :=
  match groups.find? fun group => decide (target ∈ group.targets) with
  | some group => if group.domain ≠ "" ∧ group.domain ∉ expandedDomains then group.domain else target
  | none => target

/-- The objects that there are, by number, and the map `edges`. -/
structure Store where
  objects : Nat → TopologyEdge
  next : Nat
  edges : List (String × Nat) := []

/-- An edge is added to another one. -/
def TopologyEdge.add (current edge : TopologyEdge) : TopologyEdge :=
  { current with
    eventCount := current.eventCount + edge.eventCount
    alertCount := current.alertCount + edge.alertCount
    lastSeenAt :=
      if edge.lastSeenAt > current.lastSeenAt then edge.lastSeenAt else current.lastSeenAt }

/-- The body of the loop over the edges, which are the first objects. -/
def Store.step (display : String → String) (s : Store) (i : Nat) : Store :=
  let edge := s.objects i
  let id := topologyEdgeId edge.endpointId (display edge.target) edge.protocol
  match s.edges.lookup id with
  | none => {
      objects := update s.objects s.next { edge with target := display edge.target }
      next := s.next + 1
      edges := s.edges ++ [(id, s.next)] }
  | some k => { s with objects := update s.objects k ((s.objects k).add edge) }

/-- The objects before the loop. -/
def Store.start (edges : List TopologyEdge) : Store where
  objects i := edges.getD i ⟨0, "", "", "", 0, 0, 0⟩
  next := edges.length

/-- The loop over the edges. -/
def Store.run (display : String → String) (edges : List TopologyEdge) : Store :=
  (range edges.length).foldl (.step display) (.start edges)

/-- `buildTopologyDomainView`: the edges and the groups, and the objects in the end. -/
def buildTopologyDomainView (edges : List TopologyEdge) (expandedDomains : List String) :
    List TopologyEdge × List TopologyDomainGroup × Store :=
  let groups := domainGroups registrableDomainForTarget localeCompare edges
  let s := .run (displayedTarget groups expandedDomains) edges
  ((s.edges.map fun entry => s.objects entry.2).mergeSort
    fun left right => compareTopologyEdges localeCompare left right ≤ 0, groups, s)

end

/-! ## The loop over the edges -/

section

variable {display : String → String} {edges done : List TopologyEdge} {edge v : TopologyEdge}
  {s : Store}

/-- The edge, as it is shown. -/
def TopologyEdge.shown (display : String → String) (edge : TopologyEdge) : TopologyEdge :=
  { edge with target := display edge.target }

/-- The text of an edge that is shown. -/
def TopologyEdge.key (edge : TopologyEdge) : String :=
  topologyEdgeId edge.endpointId edge.target edge.protocol

/-- Whether two edges that are shown have the same endpoint, target and protocol. -/
def TopologyEdge.Same (edge edge' : TopologyEdge) : Prop :=
  edge.endpointId = edge'.endpointId ∧ edge.target = edge'.target ∧ edge.protocol = edge'.protocol

instance (edge edge' : TopologyEdge) : Decidable (edge.Same edge') :=
  inferInstanceAs (Decidable (_ ∧ _))

/-- An edge is the sum of edges, with the latest time. -/
structure IsSum (edges : List TopologyEdge) (v : TopologyEdge) : Prop where
  eventCount : v.eventCount = (edges.map (·.eventCount)).sum
  alertCount : v.alertCount = (edges.map (·.alertCount)).sum
  le_lastSeenAt : ∀ edge ∈ edges, edge.lastSeenAt ≤ v.lastSeenAt
  lastSeenAt_mem : v.lastSeenAt ∈ edges.map (·.lastSeenAt)

theorem IsSum.add (h : IsSum edges v) (edge : TopologyEdge) :
    IsSum (edges ++ [edge]) (v.add edge) := by
  obtain ⟨hevents, halerts, hle, hmem⟩ := h
  refine ⟨by simp [TopologyEdge.add, hevents], by simp [TopologyEdge.add, halerts], ?_, ?_⟩
  · simp only [TopologyEdge.add, mem_append, mem_singleton]
    rintro e (he | rfl)
    · split_ifs with hlater
      · exact (hle e he).trans hlater.le
      · exact hle e he
    · split_ifs with hlater
      · exact le_rfl
      · exact not_lt.1 hlater
  · simp only [TopologyEdge.add, map_append, mem_append]
    split_ifs
    · exact .inr mem_cons_self
    · exact .inl hmem

theorem isSum_singleton (edge : TopologyEdge) : IsSum [edge] edge :=
  ⟨by simp, by simp, by simp, by simp⟩

/-- An edge of the view: the sum of the edges with a key, shown as the first of them. -/
structure Entry (done : List TopologyEdge) (key : String) (v : TopologyEdge) : Prop where
  key_eq : v.key = key
  sum : IsSum (done.filter fun edge => edge.key = key) v
  first : ∃ f, done.find? (fun edge => edge.key = key) = some f ∧ f.Same v

theorem Entry.other {key : String} (h : Entry done key v) (hne : edge.key ≠ key) :
    Entry (done ++ [edge]) key v := by
  obtain ⟨hkey, hsum, f, hf, hsame⟩ := h
  exact ⟨hkey, by simpa [filter_append, hne] using hsum, f, by simp [hf], hsame⟩

theorem Entry.add (h : Entry done edge.key v) : Entry (done ++ [edge]) edge.key (v.add edge) := by
  obtain ⟨hkey, hsum, f, hf, hsame⟩ := h
  exact ⟨hkey, by simpa [filter_append] using hsum.add edge, f, by simp [hf], hsame⟩

theorem Entry.new (h : ∀ edge' ∈ done, edge'.key ≠ edge.key) :
    Entry (done ++ [edge]) edge.key edge := by
  have hnone : done.filter (fun edge' => edge'.key = edge.key) = [] := by simpa using h
  have hfind : done.find? (fun edge' => edge'.key = edge.key) = none := by simpa using h
  exact ⟨rfl, by simpa [filter_append, hnone] using isSum_singleton edge, edge, by simp [hfind],
    rfl, rfl, rfl⟩

/-- What the loop keeps, when the edges `done` have been added up. -/
structure Inv (n : Nat) (done : List TopologyEdge) (s : Store) : Prop where
  keys : (s.edges.map (·.1)).Nodup
  numbers : (s.edges.map (·.2)).Nodup
  bounds : ∀ entry ∈ s.edges, n ≤ entry.2 ∧ entry.2 < s.next
  next : n ≤ s.next
  covers : ∀ edge ∈ done, edge.key ∈ s.edges.map (·.1)
  entries : ∀ entry ∈ s.edges, Entry done entry.1 (s.objects entry.2)

theorem Inv.new {n : Nat} (h : Inv n done s) (hlookup : s.edges.lookup edge.key = none) :
    Inv n (done ++ [edge]) {
      objects := update s.objects s.next edge
      next := s.next + 1
      edges := s.edges ++ [(edge.key, s.next)] } := by
  have hnew : ∀ entry ∈ s.edges, entry.1 ≠ edge.key := fun entry hentry heq => by
    simpa [heq] using lookup_eq_none_iff.1 hlookup entry hentry
  have hdone : ∀ edge' ∈ done, edge'.key ≠ edge.key := by
    intro edge' hedge' heq
    obtain ⟨entry, hentry, hkey⟩ := mem_map.1 (h.covers edge' hedge')
    exact hnew entry hentry (hkey.trans heq)
  refine ⟨?_, ?_, ?_, h.next.trans (le_succ _), ?_, ?_⟩
  · simpa [nodup_append, h.keys] using hnew
  · simpa [nodup_append, h.numbers] using fun k id hentry => (h.bounds (id, k) hentry).2.ne
  · simp only [mem_append, mem_singleton]
    rintro entry (hentry | rfl)
    · exact (h.bounds entry hentry).imp_right lt_succ_of_lt
    · exact ⟨h.next, lt_succ_self _⟩
  · simp only [map_append, mem_append, mem_singleton]
    rintro edge' (hedge' | rfl)
    · exact .inl (h.covers edge' hedge')
    · exact .inr mem_cons_self
  · simp only [mem_append, mem_singleton]
    rintro entry (hentry | rfl)
    · rw [update_of_ne (h.bounds entry hentry).2.ne]
      exact (h.entries entry hentry).other (hnew entry hentry).symm
    · rw [update_self]
      exact .new hdone

theorem Inv.add {n k : Nat} (h : Inv n done s) (hk : (edge.key, k) ∈ s.edges) :
    Inv n (done ++ [edge])
      { s with objects := update s.objects k ((s.objects k).add edge) } := by
  refine ⟨h.keys, h.numbers, h.bounds, h.next, ?_, fun entry hentry => ?_⟩
  · simp only [mem_append, mem_singleton]
    rintro edge' (hedge' | rfl)
    · exact h.covers edge' hedge'
    · exact mem_map_of_mem hk
  · dsimp only at hentry ⊢
    by_cases hnumber : entry.2 = k
    · cases inj_on_of_nodup_map h.numbers hentry hk hnumber
      rw [update_self]
      exact (h.entries _ hk).add
    · rw [update_of_ne hnumber]
      refine (h.entries entry hentry).other fun heq => hnumber ?_
      rw [inj_on_of_nodup_map h.keys hentry hk heq.symm]

/-- One edge is added up, and the objects before those of the view stay. -/
theorem Inv.step {n : Nat} (h : Inv n done s) (display : String → String) (i : Nat) :
    Inv n (done ++ [(s.objects i).shown display]) (s.step display i) ∧
      ∀ j < n, (s.step display i).objects j = s.objects j := by
  have hstep : s.step display i = match s.edges.lookup ((s.objects i).shown display).key with
    | none => _
    | some k => _ := rfl
  rw [hstep]
  cases hlookup : s.edges.lookup ((s.objects i).shown display).key with
  | none => exact ⟨h.new hlookup, fun j hj => update_of_ne (hj.trans_le h.next).ne _ _⟩
  | some k =>
    obtain ⟨before, after, heq, -⟩ := lookup_eq_some_iff.1 hlookup
    have hk : (((s.objects i).shown display).key, k) ∈ s.edges := by simp [heq]
    exact ⟨h.add hk, fun j hj => update_of_ne (hj.trans_le (h.bounds _ hk).1).ne _ _⟩

theorem inv_run (display : String → String) (edges : List TopologyEdge) :
    Inv edges.length (edges.map (·.shown display)) (.run display edges) ∧
      ∀ j < edges.length, (Store.run display edges).objects j = (Store.start edges).objects j := by
  have hrun : ∀ m ≤ edges.length,
      let s := (range m).foldl (Store.step display) (.start edges)
      Inv edges.length ((edges.take m).map (·.shown display)) s ∧
        ∀ j < edges.length, s.objects j = (Store.start edges).objects j := by
    intro m
    induction m with
    | zero => exact fun _ => ⟨by constructor <;> simp [Store.start], fun _ _ => rfl⟩
    | succ m ih =>
      intro hm
      obtain ⟨hinv, hobjects⟩ := ih (by omega)
      have hstep := hinv.step display m
      have hedge : (Store.start edges).objects m = edges[m] := by
        simp [Store.start, getD_eq_getElem?_getD, getElem?_eq_getElem hm]
      rw [hobjects m hm, hedge] at hstep
      rw [range_succ, foldl_append, take_succ_eq_append_getElem hm, map_append]
      exact ⟨hstep.1, fun j hj => (hstep.2 j hj).trans (hobjects j hj)⟩
  have hall := hrun edges.length le_rfl
  rwa [take_length] at hall

end

/-! ## The sums -/

section

variable {edges : List TopologyEdge} {v : TopologyEdge}

theorem TopologyEdge.Same.key_eq {edge edge' : TopologyEdge} (h : edge.Same edge') :
    edge.key = edge'.key := by
  rw [TopologyEdge.key, TopologyEdge.key, h.1, h.2.1, h.2.2]

theorem sum_eq_sum_filter_iff {α : Type*} (p : α → Prop) [DecidablePred p] (f : α → Nat)
    (l : List α) :
    (l.map f).sum = ((l.filter p).map f).sum ↔ ∀ a ∈ l, ¬p a → f a = 0 := by
  induction l with
  | nil => simp
  | cons a l ih =>
    have hle := (filter_sublist (p := p) (l := l)).map f |>.sum_le_sum (by simp)
    rw [forall_mem_cons, ← ih]
    by_cases hp : p a <;> simp [hp]
    omega

/-- The edges that have the text of `v` add nothing but those that are the same as `v`. -/
def AddsNothing (edges : List TopologyEdge) (v : TopologyEdge) : Prop :=
  ∀ edge ∈ edges, edge.key = v.key → ¬edge.Same v → edge.eventCount = 0 ∧ edge.alertCount = 0 ∧
    ∃ edge' ∈ edges, edge'.Same v ∧ edge.lastSeenAt ≤ edge'.lastSeenAt

/-- The sums are exact if and only if what is added up by mistake adds nothing. -/
theorem isSum_same_iff (h : Entry edges v.key v) :
    IsSum (edges.filter fun edge => edge.Same v) v ↔ AddsNothing edges v := by
  set keyed := edges.filter fun edge => edge.key = v.key with hkeyed
  have hfilter : edges.filter (fun edge => edge.Same v) = keyed.filter fun edge => edge.Same v := by
    rw [hkeyed, filter_filter]
    refine filter_congr fun edge _ => ?_
    simpa using fun h : edge.Same v => h.key_eq
  have hmem {edge} : edge ∈ keyed ↔ edge ∈ edges ∧ edge.key = v.key := by simp [hkeyed]
  have hevents := sum_eq_sum_filter_iff (·.Same v) (·.eventCount) keyed
  have halerts := sum_eq_sum_filter_iff (·.Same v) (·.alertCount) keyed
  rw [← h.sum.eventCount] at hevents
  rw [← h.sum.alertCount] at halerts
  rw [hfilter]
  constructor
  · intro hsum edge hedge hkey hne
    have hedge := hmem.2 ⟨hedge, hkey⟩
    obtain ⟨edge', hedge', htime⟩ := mem_map.1 hsum.lastSeenAt_mem
    obtain ⟨hedge', hsame⟩ := mem_filter.1 hedge'
    refine ⟨hevents.1 hsum.eventCount edge hedge hne, halerts.1 hsum.alertCount edge hedge hne,
      edge', (hmem.1 hedge').1, of_decide_eq_true hsame, ?_⟩
    rw [htime]
    exact h.sum.le_lastSeenAt edge hedge
  · intro hnothing
    have hzero {edge} (hedge : edge ∈ keyed) := hnothing edge (hmem.1 hedge).1 (hmem.1 hedge).2
    refine ⟨hevents.2 fun edge hedge hne => (hzero hedge hne).1,
      halerts.2 fun edge hedge hne => (hzero hedge hne).2.1,
      fun edge hedge => h.sum.le_lastSeenAt edge (mem_filter.1 hedge).1, ?_⟩
    obtain ⟨edge, hedge, htime⟩ := mem_map.1 h.sum.lastSeenAt_mem
    by_cases hsame : edge.Same v
    · exact mem_map.2 ⟨edge, mem_filter.2 ⟨hedge, decide_eq_true hsame⟩, htime⟩
    · obtain ⟨-, -, edge', hedge', hsame', hle⟩ := hzero hedge hsame
      have hedge' : edge' ∈ keyed := hmem.2 ⟨hedge', hsame'.key_eq⟩
      refine mem_map.2 ⟨edge', mem_filter.2 ⟨hedge', decide_eq_true hsame'⟩, ?_⟩
      exact le_antisymm (h.sum.le_lastSeenAt edge' hedge') (htime ▸ hle)

theorem addsNothing_congr {f : TopologyEdge} (h : f.Same v) :
    AddsNothing edges f ↔ AddsNothing edges v := by
  have hsame (edge : TopologyEdge) : edge.Same f ↔ edge.Same v := by
    rw [TopologyEdge.Same, TopologyEdge.Same, h.1, h.2.1, h.2.2]
  simp [AddsNothing, hsame, h.key_eq]

variable (registrableDomainForTarget : String → Option String)
  (localeCompare : String → String → Int) (expandedDomains : List String)

/-- The view: no two edges are the same, no object of the topology is changed, and the sums are exact
    iff what has the text of another edge adds nothing. -/
theorem domainView_iff (edges : List TopologyEdge) :
    let groups := domainGroups registrableDomainForTarget localeCompare edges
    let shown := edges.map (·.shown (displayedTarget groups expandedDomains))
    let (view, _, s) :=
      buildTopologyDomainView registrableDomainForTarget localeCompare edges expandedDomains
    (view.Pairwise fun v v' => ¬v.Same v') ∧
      (∀ i, ∀ h : i < edges.length, s.objects i = edges[i]) ∧
      ((∀ v ∈ view, IsSum (shown.filter fun edge => edge.Same v) v) ↔
        ∀ key, ∀ first ∈ shown.find? (fun edge => edge.key = key), AddsNothing shown first) := by
  intro groups shown
  obtain ⟨hinv, hobjects⟩ := inv_run (displayedTarget groups expandedDomains) edges
  set s := Store.run (displayedTarget groups expandedDomains) edges with hs
  have hperm := mergeSort_perm (s.edges.map fun entry => s.objects entry.2)
    fun left right => compareTopologyEdges localeCompare left right ≤ 0
  refine ⟨?_, ?_, ?_⟩
  · rw [hperm.pairwise_iff fun h hsame => h ⟨hsame.1.symm, hsame.2.1.symm, hsame.2.2.symm⟩,
      pairwise_map]
    refine (pairwise_map.1 hinv.keys).imp_of_mem fun ha hb hne hsame => hne ?_
    rw [← (hinv.entries _ ha).key_eq, ← (hinv.entries _ hb).key_eq, hsame.key_eq]
  · intro i hi
    rw [hobjects i hi]
    simp [Store.start, getD_eq_getElem?_getD, getElem?_eq_getElem hi]
  · constructor
    · intro hsum key f hf
      have hfirst : f ∈ shown ∧ f.key = key :=
        ⟨mem_of_find?_eq_some hf, by simpa using find?_some hf⟩
      obtain ⟨entry, hentry, hkey⟩ := mem_map.1 (hinv.covers f hfirst.1)
      have h := hinv.entries entry hentry
      obtain ⟨f', hf', hsame⟩ := h.first
      rw [hkey.trans hfirst.2] at hf'
      cases Option.mem_unique hf hf'
      rw [addsNothing_congr hsame, ← isSum_same_iff (h.key_eq.symm ▸ h)]
      exact hsum _ (hperm.mem_iff.2 (mem_map_of_mem hentry))
    · intro hnothing v hv
      obtain ⟨entry, hentry, rfl⟩ := mem_map.1 (hperm.mem_iff.1 hv)
      have h := hinv.entries entry hentry
      obtain ⟨f, hf, hsame⟩ := h.first
      rw [isSum_same_iff (h.key_eq.symm ▸ h), ← addsNothing_congr hsame]
      exact hnothing entry.1 f hf

/-- A target and a protocol with a bar. -/
theorem domainView_bar :
    let edge := .mk 1 "host" "a|b" "c" 1 0 0
    let edge' := .mk 1 "host" "a" "b|c" 1 0 0
    let v := { edge with eventCount := 2 }
    (buildTopologyDomainView (fun _ => none) (fun _ _ => 0) [edge, edge'] []).1 = [v] ∧
      ¬IsSum ([edge, edge'].filter fun edge => edge.Same v) v := by
  have hkey : topologyEdgeId 1 "a|b" "c" = topologyEdgeId 1 "a" "b|c" := by decide +kernel
  refine ⟨?_, fun h => absurd h.eventCount (by decide)⟩
  simp [buildTopologyDomainView, domainGroups, domainOf, displayedTarget, Store.run, Store.start,
    Store.step, hkey, range_succ, TopologyEdge.add]

end

end Edr.Topology
