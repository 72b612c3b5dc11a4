import IdleEngine.Content.DetectCycles
import IdleEngine.Lib.BreadthFirst

/-!
# The shortest cycle through a node

`findCycleFromNode` searches breadth-first from a node for an edge back to it, and rebuilds the path
from a map that holds the node from which each node was queued. Between two rounds the nodes seen
are marked as in `BreadthFirst` and none of those expanded has an edge back (`Seeking`); following
the map from a node takes as many steps as it is deep (`Seeking.buildCyclePath_eq`).

The path is rebuilt with a test that takes the empty id for a missing entry, so that a cycle is lost
if the empty id comes before another node on it (`findCycleFromNode_empty`). No parsed id is empty.
-/

namespace IdleEngine

open BreadthFirst List

/-! ### The search -/

/-- `buildCyclePath`, with the path so far from its end; the fuel bounds the steps back. -/
def buildCyclePath (previous : OrderedMap String String) (startId : String) :
    ℕ → String → List String → Option (List String)
  | 0, _, _ => none
  | fuel + 1, cursor, path =>
    if cursor = startId then some (path ++ [startId])
    else
      match previous.get? cursor with
      | none => none
      -- `!parent` holds of the empty id too
      | some parent =>
        if parent = "" then none else buildCyclePath previous startId fuel parent (parent :: path)

/-- The variables of `findCycleFromNode`. -/
structure NodeSearch where
  queue : List String
  visited : List String
  previous : OrderedMap String String

/-- The loop over the targets of a node: it ends at the start, or queues what is new. -/
def visitTargets (startId : String) (fuel : ℕ) (current : String) :
    List String → NodeSearch → Option (List String) ⊕ NodeSearch
  | [], search => .inr search
  | next :: targets, search =>
    if next = startId then .inl (buildCyclePath search.previous startId fuel current [current])
    else if next ∈ search.visited then visitTargets startId fuel current targets search
    else
      visitTargets startId fuel current targets
        { queue := search.queue ++ [next]
          visited := search.visited ++ [next]
          previous := search.previous.set next current }

/-- The loop over the queue. -/
def searchCycle (adjacency : AdjacencyGraph) (startId : String) (pathFuel : ℕ) :
    ℕ → NodeSearch → Option (List String)
  | 0, _ => none
  | fuel + 1, search =>
    match search.queue with
    | [] => none
    | current :: queue =>
      match visitTargets startId pathFuel current (adjacency.targets current)
          { search with queue } with
      | .inl path => path
      | .inr search => searchCycle adjacency startId pathFuel fuel search

/-- `findCycleFromNode`. Every node but the first is queued as the target of an edge, once. -/
def findCycleFromNode (startId : String) (adjacency : AdjacencyGraph) : Option (List String) :=
  if startId ∈ adjacency.targets startId then some [startId, startId]
  else
    let rounds := (adjacency.entries.flatMap Prod.snd).length + 2
    searchCycle adjacency startId rounds rounds
      { queue := [startId], visited := [startId], previous := OrderedMap.empty }

/-! ### Cycles -/

namespace AdjacencyGraph

variable {adjacency : AdjacencyGraph} {startId : String}

/-- A path along edges that starts and ends at a node. -/
structure CycleThrough (adjacency : AdjacencyGraph) (startId : String) (path : List String) :
    Prop extends adjacency.ClosedPath path where
  start : path.head? = some startId

variable {path : List String}

theorem walk_of_isChain {node : String} (h : (node :: path).IsChain adjacency.Edge) :
    Walk adjacency.Edge path.length node ((node :: path).getLast (cons_ne_nil _ _)) := by
  induction path generalizing node with
  | nil => rfl
  | cons next path ih =>
    obtain ⟨hedge, hrest⟩ := isChain_cons_cons.mp h
    rw [getLast_cons (cons_ne_nil next path)]
    exact (ih hrest).cons hedge

theorem CycleThrough.walk (h : adjacency.CycleThrough startId path) :
    ∃ n node, Walk adjacency.Edge n startId node ∧ adjacency.Edge node startId ∧
      path.length = n + 2 := by
  obtain ⟨⟨hchain, hclosed, hlength⟩, hstart⟩ := h
  obtain ⟨before, rfl⟩ := getLast?_eq_some_iff.mp (hclosed.trans hstart)
  cases before with
  | nil =>
    rw [nil_append, length_singleton] at hlength
    omega
  | cons node before =>
    obtain rfl : node = startId := Option.some.inj hstart
    obtain ⟨hinner, -, hlast⟩ := isChain_append.mp hchain
    refine ⟨before.length, _, walk_of_isChain hinner, ?_, by simp⟩
    exact hlast _ (getLast?_eq_some_getLast (cons_ne_nil _ _)) _ rfl

end AdjacencyGraph

/-! ### One round -/

/-- What the targets of a node lead to: the path that is rebuilt when the start is among them, or a
search that has queued the new ones. -/
theorem visitTargets_spec {startId : String} {fuel : ℕ} {current : String}
    (targets : List String) (search : NodeSearch) (hnodup : search.visited.Nodup) :
    (startId ∈ targets ∧ ∃ previous : OrderedMap String String,
        visitTargets startId fuel current targets search =
          .inl (buildCyclePath previous startId fuel current [current]) ∧
        ∀ node ∈ search.visited, previous.get? node = search.previous.get? node) ∨
      startId ∉ targets ∧ ∃ (new : List String) (previous : OrderedMap String String),
        visitTargets startId fuel current targets search =
          .inr ⟨search.queue ++ new, search.visited ++ new, previous⟩ ∧
        (search.visited ++ new).Nodup ∧ new ⊆ targets ∧ targets ⊆ search.visited ++ new ∧
        (∀ node ∈ search.visited, previous.get? node = search.previous.get? node) ∧
        ∀ node ∈ new, previous.get? node = some current := by
  induction targets generalizing search with
  | nil => exact .inr ⟨not_mem_nil, [], search.previous, by simp [visitTargets], by simpa⟩
  | cons next targets ih =>
    rw [visitTargets]
    by_cases hnext : next = startId
    · rw [if_pos hnext]
      exact .inl ⟨hnext ▸ mem_cons_self, search.previous, rfl, fun _ _ => rfl⟩
    · rw [if_neg hnext]
      have hhead : startId ∈ next :: targets ↔ startId ∈ targets := by simp [Ne.symm hnext]
      rw [hhead]
      by_cases hseen : next ∈ search.visited
      · rw [if_pos hseen]
        rcases ih search hnodup with hfound | ⟨hnot, new, previous, hrun, hnew, hsub, hall, hrest⟩
        · exact .inl hfound
        · exact .inr ⟨hnot, new, previous, hrun, hnew, subset_cons_of_subset _ hsub,
            cons_subset.mpr ⟨mem_append_left _ hseen, hall⟩, hrest⟩
      · rw [if_neg hseen]
        have hnodup' : (search.visited ++ [next]).Nodup := by
          rw [nodup_append]
          exact ⟨hnodup, nodup_singleton _, by
            rintro node hnode _ (_ | ⟨_, ⟨⟩⟩) rfl
            exact hseen hnode⟩
        -- the new entry is for a node that was not seen
        have hold : ∀ node ∈ search.visited,
            (search.previous.set next current).get? node = search.previous.get? node := by
          intro node hnode
          rw [OrderedMap.get?_set, if_neg]
          rintro rfl
          exact hseen hnode
        rcases ih ⟨search.queue ++ [next], search.visited ++ [next],
          search.previous.set next current⟩ hnodup' with
          ⟨hmem, previous, hrun, hsame⟩ | ⟨hnot, new, previous, hrun, hnew, hsub, hall, hsame, hset⟩
        · exact .inl ⟨hmem, previous, hrun, fun node hnode =>
            (hsame node (mem_append_left _ hnode)).trans (hold node hnode)⟩
        · rw [append_assoc] at hnew hall
          refine .inr ⟨hnot, next :: new, previous, ?_, hnew, cons_subset_cons _ hsub,
            cons_subset.mpr ⟨by simp, hall⟩, fun node hnode =>
              (hsame node (mem_append_left _ hnode)).trans (hold node hnode), ?_⟩
          · rw [hrun, append_assoc, append_assoc]
            rfl
          · rw [forall_mem_cons]
            refine ⟨?_, hset⟩
            rw [hsame next (by simp), OrderedMap.get?_set, if_pos rfl]

/-- What holds between two rounds of the search. -/
structure Seeking (adjacency : AdjacencyGraph) (startId : String) (pathFuel fuel : ℕ)
    (search : NodeSearch) (depth : String → ℕ) : Prop where
  frontier : Frontier adjacency.Edge startId (· ∈ search.visited) depth search.queue
  nodup : search.visited.Nodup
  known : search.visited ⊆ startId :: adjacency.entries.flatMap Prod.snd
  parents : ∀ node ∈ search.visited, node ≠ startId → ∃ parent,
    search.previous.get? node = some parent ∧ parent ∈ search.visited ∧
      adjacency.Edge parent node ∧ depth node = depth parent + 1
  noEdge : ∀ node ∈ search.visited, node ∉ search.queue → ¬adjacency.Edge node startId
  deep : ∀ node ∈ search.visited, depth node + fuel ≤ pathFuel
  rounds : search.queue.length + (adjacency.entries.flatMap Prod.snd).length + 2 ≤
    fuel + search.visited.length

section Rebuilding

variable {adjacency : AdjacencyGraph} {startId : String} {pathFuel fuel : ℕ} {search : NodeSearch}
  {depth : String → ℕ}

variable {previous : OrderedMap String String}

/-- **Rebuilding a path** from a node takes as many steps as the node is deep. -/
theorem Seeking.buildCyclePath_eq (h : Seeking adjacency startId pathFuel fuel search depth)
    (hempty : adjacency.targets "" = [])
    (hsame : ∀ node ∈ search.visited, previous.get? node = search.previous.get? node) {steps : ℕ}
    {node : String} {rest : List String} (hnode : node ∈ search.visited)
    (hsteps : depth node < steps) (hchain : (node :: rest).IsChain adjacency.Edge) :
    ∃ inner, buildCyclePath previous startId steps node (node :: rest) =
        some (startId :: inner ++ [startId]) ∧
      (startId :: inner).IsChain adjacency.Edge ∧
      (startId :: inner).getLast? = (node :: rest).getLast? ∧
      inner.length = depth node + rest.length := by
  induction steps generalizing node rest with
  | zero => omega
  | succ steps ih =>
    rw [buildCyclePath]
    by_cases hstart : node = startId
    · rw [if_pos hstart]
      subst hstart
      exact ⟨rest, rfl, hchain, rfl, by rw [h.frontier.source_depth, Nat.zero_add]⟩
    · rw [if_neg hstart]
      obtain ⟨parent, hget, hparent, hedge, hdepth⟩ := h.parents node hnode hstart
      have hname : parent ≠ "" := by
        rintro rfl
        rw [AdjacencyGraph.Edge, hempty] at hedge
        exact absurd hedge not_mem_nil
      obtain ⟨inner, hrun, hinner, hlast, hlength⟩ := ih hparent (by omega)
        (isChain_cons_cons.mpr ⟨hedge, hchain⟩)
      rw [hsame node hnode, hget]
      dsimp only
      rw [if_neg hname]
      refine ⟨inner, hrun, hinner, hlast, ?_⟩
      rw [hlength, length_cons]
      omega

variable {current : String} {queue : List String}

/-- The path that is rebuilt when the head of the queue has an edge back is a shortest cycle. -/
theorem Seeking.found (h : Seeking adjacency startId pathFuel (fuel + 1) search depth)
    (hqueue : search.queue = current :: queue) (hempty : adjacency.targets "" = [])
    (hedge : adjacency.Edge current startId)
    (hsame : ∀ node ∈ search.visited, previous.get? node = search.previous.get? node) :
    ∃ path, buildCyclePath previous startId pathFuel current [current] = some path ∧
      adjacency.CycleThrough startId path ∧
      ∀ other, adjacency.CycleThrough startId other → path.length ≤ other.length := by
  have hcurrent : current ∈ search.visited :=
    h.frontier.queued current (hqueue ▸ mem_cons_self)
  have hdeep := h.deep current hcurrent
  have hsteps : depth current < pathFuel := by omega
  have hsingle : [current].IsChain adjacency.Edge := isChain_singleton _
  obtain ⟨inner, hrun, hinner, hlast, hlength⟩ :=
    h.buildCyclePath_eq hempty hsame hcurrent hsteps hsingle
  refine ⟨startId :: inner ++ [startId], hrun, ⟨⟨?_, ?_, ?_⟩, rfl⟩, fun other hother => ?_⟩
  · refine isChain_append.mpr ⟨hinner, isChain_singleton _, ?_⟩
    intro last hmem start hstart
    rw [hlast] at hmem
    obtain rfl : current = last := Option.some.inj hmem
    obtain rfl : startId = start := Option.some.inj hstart
    exact hedge
  · rw [getLast?_append, getLast?_singleton]
    rfl
  · simp
  · obtain ⟨n, node, hwalk, hback, hother⟩ := hother.walk
    have hhead : ∀ v ∈ search.queue, depth current ≤ depth v := by
      have hsorted := h.frontier.sorted
      rw [hqueue] at hsorted ⊢
      exact forall_mem_cons.mpr ⟨le_rfl, fun v hv => rel_of_pairwise_cons hsorted hv⟩
    have hle : depth current ≤ n := by
      rcases h.frontier.walk hwalk with ⟨hmarked, hdepth⟩ | ⟨-, v, hv, hdepth⟩
      · -- what was expanded has no edge back
        have hqueued : node ∈ search.queue := by
          by_contra hnot
          exact h.noEdge node hmarked hnot hback
        exact (hhead node hqueued).trans hdepth
      · have hless := hhead v hv
        omega
    simp only [length_append, length_cons, length_nil] at hlength ⊢
    omega

/-- A round that queues the targets of the head. -/
theorem Seeking.next {new : List String}
    (h : Seeking adjacency startId pathFuel (fuel + 1) search depth)
    (hqueue : search.queue = current :: queue) (hback : ¬adjacency.Edge current startId)
    (hnodup : (search.visited ++ new).Nodup) (hsub : new ⊆ adjacency.targets current)
    (hall : adjacency.targets current ⊆ search.visited ++ new)
    (hsame : ∀ node ∈ search.visited, previous.get? node = search.previous.get? node)
    (hset : ∀ node ∈ new, previous.get? node = some current) :
    ∃ depth', Seeking adjacency startId pathFuel fuel
      ⟨queue ++ new, search.visited ++ new, previous⟩ depth' := by
  have hcurrent : current ∈ search.visited :=
    h.frontier.queued current (hqueue ▸ mem_cons_self)
  have hfresh : ∀ node ∈ new, node ∉ search.visited := fun node hnode hold =>
    (nodup_append.mp hnodup).2.2 node hold node hnode rfl
  -- the new nodes are one step deeper than the head, the others keep their depth
  let depth' : String → ℕ := fun node =>
    if node ∈ search.visited then depth node else depth current + 1
  have hold : ∀ node, node ∈ search.visited → depth' node = depth node :=
    fun _ hnode => if_pos hnode
  have hnew : ∀ node ∈ new, depth' node = depth current + 1 :=
    fun node hnode => if_neg (hfresh node hnode)
  have hfrontier := h.frontier
  rw [hqueue] at hfrontier
  refine ⟨depth', ?_, hnodup, ?_, ?_, ?_, ?_, ?_⟩
  · have hmarked : (· ∈ search.visited ++ new) = fun node => node ∈ search.visited ∨ node ∈ new :=
      funext fun node => propext mem_append
    rw [hmarked]
    exact hfrontier.expand (fun node hedge => mem_append.mp (hall hedge)) hold hnew
  · refine append_subset.mpr ⟨h.known, fun node hnode => mem_cons_of_mem _ ?_⟩
    exact AdjacencyGraph.Edge.mem_entries (hsub hnode)
  · intro node hnode hne
    rcases mem_append.mp hnode with hnode | hnode
    · obtain ⟨parent, hget, hparent, hedge, hdepth⟩ := h.parents node hnode hne
      refine ⟨parent, (hsame node hnode).trans hget, mem_append_left _ hparent, hedge, ?_⟩
      rw [hold node hnode, hold parent hparent, hdepth]
    · refine ⟨current, hset node hnode, mem_append_left _ hcurrent, hsub hnode, ?_⟩
      rw [hnew node hnode, hold current hcurrent]
  · intro node hnode hnot
    rw [mem_append, not_or] at hnot
    by_cases hcase : node = current
    · exact hcase ▸ hback
    · refine h.noEdge node ((mem_append.mp hnode).resolve_right hnot.2) ?_
      rw [hqueue]
      exact fun hmem => (mem_cons.mp hmem).elim hcase hnot.1
  · intro node hnode
    have hdeep := h.deep current hcurrent
    rcases mem_append.mp hnode with hnode | hnode
    · have hdeep' := h.deep node hnode
      rw [hold node hnode]
      omega
    · rw [hnew node hnode]
      omega
  · have hrounds := h.rounds
    rw [hqueue] at hrounds
    simp only [length_append, length_cons] at hrounds ⊢
    omega

/-- **Run lemma.** -/
theorem Seeking.correct (h : Seeking adjacency startId pathFuel fuel search depth)
    (hempty : adjacency.targets "" = []) :
    (searchCycle adjacency startId pathFuel fuel search = none →
      ∀ path, ¬adjacency.CycleThrough startId path) ∧
    ∀ path, searchCycle adjacency startId pathFuel fuel search = some path →
      adjacency.CycleThrough startId path ∧
        ∀ other, adjacency.CycleThrough startId other → path.length ≤ other.length := by
  induction fuel generalizing search depth with
  | zero =>
    -- more nodes would have been seen than there are
    have hle := (subperm_of_subset h.nodup h.known).length_le
    have hrounds := h.rounds
    rw [length_cons] at hle
    omega
  | succ fuel ih =>
    rw [searchCycle]
    rcases hqueue : search.queue with _ | ⟨current, queue⟩
    · dsimp only
      refine ⟨fun _ path hpath => ?_, fun path hpath => (by cases hpath)⟩
      obtain ⟨n, node, hwalk, hback, -⟩ := hpath.walk
      have hfrontier := h.frontier
      rw [hqueue] at hfrontier
      rcases hfrontier.walk hwalk with ⟨hmarked, -⟩ | ⟨-, v, hv, -⟩
      · exact h.noEdge node hmarked (by rw [hqueue]; exact not_mem_nil) hback
      · exact absurd hv not_mem_nil
    · dsimp only
      rcases visitTargets_spec (adjacency.targets current) { search with queue }
        h.nodup with
        ⟨hback, previous, hrun, hsame⟩ |
          ⟨hback, new, previous, hrun, hnodup, hsub, hall, hsame, hset⟩
      · rw [hrun]
        obtain ⟨path, hpath, hcycle, hshort⟩ := h.found hqueue hempty hback hsame
        dsimp only
        rw [hpath]
        refine ⟨fun hnone => (by cases hnone), fun path' hsome => ?_⟩
        obtain rfl := Option.some.inj hsome
        exact ⟨hcycle, hshort⟩
      · rw [hrun]
        obtain ⟨depth', hnext⟩ := h.next hqueue hback hnodup hsub hall hsame hset
        exact ih hnext

end Rebuilding

/-- **The shortest cycle through a node.** Unless the empty id has edges, the search returns a path
exactly when the node is on a cycle, and then a shortest cycle through it. -/
theorem findCycleFromNode_correct (adjacency : AdjacencyGraph) (startId : String)
    (hempty : adjacency.targets "" = []) :
    ((findCycleFromNode startId adjacency).isSome ↔
      ∃ path, adjacency.CycleThrough startId path) ∧
    ∀ path, findCycleFromNode startId adjacency = some path →
      adjacency.CycleThrough startId path ∧
        ∀ other, adjacency.CycleThrough startId other → path.length ≤ other.length := by
  have hcorrect : (findCycleFromNode startId adjacency = none →
      ∀ path, ¬adjacency.CycleThrough startId path) ∧
      ∀ path, findCycleFromNode startId adjacency = some path →
        adjacency.CycleThrough startId path ∧
          ∀ other, adjacency.CycleThrough startId other → path.length ≤ other.length := by
    rw [findCycleFromNode]
    by_cases hself : startId ∈ adjacency.targets startId
    · rw [if_pos hself]
      refine ⟨fun hnone => (by cases hnone), fun path hsome => ?_⟩
      obtain rfl := Option.some.inj hsome
      exact ⟨⟨⟨List.isChain_pair.mpr hself, rfl, le_rfl⟩, rfl⟩, fun other hother => hother.length⟩
    · rw [if_neg hself]
      have hstart := Frontier.start adjacency.Edge startId
      have hmarked : (· ∈ [startId]) = (· = startId) :=
        funext fun node => propext List.mem_singleton
      rw [← hmarked] at hstart
      have hseeking : Seeking adjacency startId
          ((adjacency.entries.flatMap Prod.snd).length + 2)
          ((adjacency.entries.flatMap Prod.snd).length + 2)
          ⟨[startId], [startId], OrderedMap.empty⟩ fun _ => 0 := by
        refine ⟨hstart, List.nodup_singleton _, ?_, ?_, ?_, fun _ _ => (Nat.zero_add _).le, ?_⟩
        · exact List.cons_subset.mpr ⟨List.mem_cons_self, List.nil_subset _⟩
        · exact fun node hnode hne => absurd (List.mem_singleton.mp hnode) hne
        · exact fun node hnode hnot => absurd hnode hnot
        · simp only [List.length_singleton]
          omega
      exact hseeking.correct hempty
  refine ⟨⟨fun hsome => ?_, fun ⟨path, hpath⟩ => ?_⟩, hcorrect.2⟩
  · obtain ⟨path, hpath⟩ := Option.isSome_iff_exists.mp hsome
    exact ⟨path, (hcorrect.2 path hpath).1⟩
  · by_contra hnone
    exact hcorrect.1 (Option.not_isSome_iff_eq_none.mp hnone) path hpath

/-- Two nodes with edges to each other. -/
def mutualGraph : AdjacencyGraph := ⟨[("a", ["b"]), ("b", ["a"])], by decide⟩

theorem findCycleFromNode_correct_mutual :
    findCycleFromNode "a" mutualGraph = some ["a", "b", "a"] ∧
      ∀ other, mutualGraph.CycleThrough "a" other → 3 ≤ other.length := by
  have hfound : findCycleFromNode "a" mutualGraph = some ["a", "b", "a"] := by decide
  exact ⟨hfound, ((findCycleFromNode_correct mutualGraph "a" rfl).2 _ hfound).2⟩

/-- A cycle of three nodes, one of which has the empty id. -/
def emptyIdGraph : AdjacencyGraph := ⟨[("a", [""]), ("", ["b"]), ("b", ["a"])], by decide⟩

theorem findCycleFromNode_empty :
    findCycleFromNode "a" emptyIdGraph = none ∧
      emptyIdGraph.CycleThrough "a" ["a", "", "b", "a"] :=
  ⟨by decide, ⟨by unfold AdjacencyGraph.Edge; decide, rfl, by decide⟩, rfl⟩

end IdleEngine
