import IdleEngine.Lib.OrderedMap
import IdleEngine.CodeUnits
import Mathlib.Data.List.Chain
import Mathlib.Data.List.Perm.Subperm
import Mathlib.Logic.Relation

/-!
# Cycle detection in content packs

`detectCycles` is a depth-first search that keeps the path from the node it started at. It finds a
cycle exactly when one can be reached from the nodes it is given, whether it stops at the first or
goes on, and what it reports are cycles (`detectCycles_sound_complete`): a node met again while it
is still on the path closes a cycle, and as long as none was found, a node that the search has left
is accessible, that is, every chain of edges from it ends.
-/

namespace IdleEngine

open List

/-- `AdjacencyGraph`: the targets of each node, in insertion order. -/
abbrev AdjacencyGraph := OrderedMap String (List String)

/-- The targets of a node; a node without an entry has none. -/
def AdjacencyGraph.targets (adjacency : AdjacencyGraph) (node : String) : List String :=
  (adjacency.get? node).getD []

/-- There is an edge between two nodes. -/
def AdjacencyGraph.Edge (adjacency : AdjacencyGraph) (source target : String) : Prop :=
  target ∈ adjacency.targets source

/-- The loop of `normalizeCyclePath` that looks for the smallest node. -/
def smallestNodeIndex (cycle : List String) : ℕ :=
  (List.range' 1 (cycle.length - 1)).foldl
    (fun minIndex i => if utf16Lt (cycle.getD i "") (cycle.getD minIndex "") then i else minIndex) 0

/-- `normalizeCyclePath`: the text of a cycle that starts at its smallest node. -/
def normalizeCyclePath (cyclePath : List String) : String :=
  if cyclePath.length ≤ 1 then "→".intercalate cyclePath
  else
    -- the last node repeats the first one
    let cycle := cyclePath.dropLast
    let minIndex := smallestNodeIndex cycle
    let normalized := cycle.drop minIndex ++ cycle.take minIndex
    "→".intercalate (normalized ++ normalized.take 1)

/-- The variables that the visits of `detectCycles` share. -/
structure CycleSearch where
  visited : List String
  stack : List String
  path : List String
  cycles : List (List String)
  seenCycles : List String

/-- A loop over visits that ends early when a visit asks to stop. -/
def visitUntilStop (visit : String → CycleSearch → Bool × CycleSearch) :
    List String → CycleSearch → Bool × CycleSearch
  | [], search => (false, search)
  | node :: nodes, search =>
    if (visit node search).1 then (true, (visit node search).2)
    else visitUntilStop visit nodes (visit node search).2

/-- The node closes a cycle with the path it is on. -/
def CycleSearch.closeCycle (stopAtFirst : Bool) (node : String) (search : CycleSearch) :
    Bool × CycleSearch :=
  let cyclePath := search.path.drop (search.path.idxOf node) ++ [node]
  let normalizedCycle := normalizeCyclePath cyclePath
  if normalizedCycle ∈ search.seenCycles then (false, search)
  else
    (stopAtFirst,
      { search with
        seenCycles := search.seenCycles ++ [normalizedCycle]
        cycles := search.cycles ++ [cyclePath] })

/-- A node that is neither visited nor on the stack is entered. -/
def CycleSearch.enter (node : String) (search : CycleSearch) : CycleSearch :=
  { search with
    visited := search.visited ++ [node]
    stack := search.stack ++ [node]
    path := search.path ++ [node] }

/-- A node is left when all its targets were visited. -/
def CycleSearch.leave (node : String) (search : CycleSearch) : CycleSearch :=
  { search with
    stack := search.stack.erase node
    path := search.path.dropLast }

/-- `visit` of `detectCycles`; the fuel bounds how deep the visits nest. -/
def AdjacencyGraph.visit (adjacency : AdjacencyGraph) (stopAtFirst : Bool) :
    ℕ → String → CycleSearch → Bool × CycleSearch
  | 0, _, search => (false, search)
  | fuel + 1, node, search =>
    if node ∈ search.stack then search.closeCycle stopAtFirst node
    else if node ∈ search.visited then (false, search)
    else
      let visited := visitUntilStop (adjacency.visit stopAtFirst fuel) (adjacency.targets node)
        (search.enter node)
      if visited.1 then visited else (false, visited.2.leave node)

/-- The node of the outer loop of `detectCycles`. -/
def AdjacencyGraph.visitUnvisited (adjacency : AdjacencyGraph) (stopAtFirst : Bool) (fuel : ℕ)
    (node : String) (search : CycleSearch) : Bool × CycleSearch :=
  if node ∈ search.visited then (false, search) else adjacency.visit stopAtFirst fuel node search

/-- `detectCycles`. No visit nests deeper than there are nodes and targets of edges. -/
def detectCycles (adjacency : AdjacencyGraph) (nodes : List String) (stopAtFirst : Bool) :
    List (List String) :=
  let fuel := nodes.length + (adjacency.entries.flatMap Prod.snd).length + 1
  (visitUntilStop (adjacency.visitUnvisited stopAtFirst fuel) nodes ⟨[], [], [], [], []⟩).2.cycles

/-! ### What the search has settled -/

namespace AdjacencyGraph

variable {adjacency : AdjacencyGraph}

/-- Every chain of edges from the node ends. -/
def Ends (adjacency : AdjacencyGraph) (node : String) : Prop :=
  Acc (fun target source => adjacency.Edge source target) node

theorem Ends.not_cycle {node : String} (h : adjacency.Ends node) :
    ¬ Relation.TransGen adjacency.Edge node node := by
  intro hcycle
  induction h with
  | intro node _ ih =>
    -- the cycle also passes through the first target, whose chains end
    obtain ⟨target, hedge, hback⟩ := Relation.TransGen.head'_iff.mp hcycle
    exact ih target hedge (.tail' hback hedge)

theorem Ends.of_reflTransGen {source node : String} (h : adjacency.Ends source)
    (hreach : Relation.ReflTransGen adjacency.Edge source node) : adjacency.Ends node := by
  induction hreach with
  | refl => exact h
  | tail _ hedge ih => exact Acc.inv ih hedge

/-- A node can be reached from one of the nodes. -/
def Reachable (adjacency : AdjacencyGraph) (nodes : List String) (node : String) : Prop :=
  ∃ start ∈ nodes, Relation.ReflTransGen adjacency.Edge start node

/-- A path along edges that ends where it starts. -/
structure ClosedPath (adjacency : AdjacencyGraph) (cycle : List String) : Prop where
  edges : cycle.IsChain adjacency.Edge
  closed : cycle.getLast? = cycle.head?
  length : 2 ≤ cycle.length

/-- What a search has found on its way along a path: cycles that can be reached, at most one if it
stops at the first, and while there is none, nodes left whose chains end. -/
structure Searching (adjacency : AdjacencyGraph) (nodes : List String) (stopAtFirst : Bool)
    (search : CycleSearch) : Prop where
  stack : search.stack = search.path
  nodup : search.path.Nodup
  chain : search.path.IsChain adjacency.Edge
  reached : ∀ node ∈ search.path, adjacency.Reachable nodes node
  cycles : ∀ cycle ∈ search.cycles,
    adjacency.ClosedPath cycle ∧ ∀ node ∈ cycle, adjacency.Reachable nodes node
  seenCycles : search.cycles = [] → search.seenCycles = []
  first : stopAtFirst = true → search.cycles = []
  left : search.cycles = [] → ∀ node ∈ search.visited, node ∉ search.path → adjacency.Ends node

/-- The search has stopped at its only cycle. -/
structure Stopped (adjacency : AdjacencyGraph) (nodes : List String) (stopAtFirst : Bool)
    (search : CycleSearch) : Prop where
  first : stopAtFirst = true
  found : ∃ cycle, search.cycles = [cycle] ∧ adjacency.ClosedPath cycle ∧
    ∀ node ∈ cycle, adjacency.Reachable nodes node

/-- What visiting some nodes leads to: a cycle and the request to stop, or the same path, no fewer
cycles, and nodes whose chains end if there is still no cycle. -/
def Visited (adjacency : AdjacencyGraph) (nodes : List String) (stopAtFirst : Bool)
    (search : CycleSearch) (visited : List String) (result : Bool × CycleSearch) : Prop :=
  result.1 = true ∧ adjacency.Stopped nodes stopAtFirst result.2 ∨
    result.1 = false ∧ adjacency.Searching nodes stopAtFirst result.2 ∧
      result.2.path = search.path ∧ (result.2.cycles = [] → search.cycles = []) ∧
      (result.2.cycles = [] → ∀ node ∈ visited, adjacency.Ends node)

/-- The nodes come next on the path, and the fuel lasts for all nodes off it. -/
structure Next (adjacency : AdjacencyGraph) (nodes allNodes : List String) (fuel : ℕ)
    (path next : List String) : Prop where
  within : ∀ node ∈ path, node ∈ allNodes
  fuel : allNodes.length < fuel + path.length
  known : ∀ node ∈ next, node ∈ allNodes
  reached : ∀ node ∈ next, adjacency.Reachable nodes node
  edge : ∀ last, path.getLast? = some last → ∀ node ∈ next, adjacency.Edge last node

variable {nodes allNodes path next : List String} {stopAtFirst : Bool} {fuel : ℕ}
  {search : CycleSearch} {node : String}

theorem Next.subset {next' : List String} (h : adjacency.Next nodes allNodes fuel path next)
    (hsub : ∀ node ∈ next', node ∈ next) : adjacency.Next nodes allNodes fuel path next' :=
  ⟨h.within, h.fuel, fun node hnode => h.known node (hsub node hnode),
    fun node hnode => h.reached node (hsub node hnode),
    fun last hlast node hnode => h.edge last hlast node (hsub node hnode)⟩

theorem Next.enter (hclosed : ∀ source target, adjacency.Edge source target → target ∈ allNodes)
    (h : adjacency.Next nodes allNodes (fuel + 1) path [node]) :
    adjacency.Next nodes allNodes fuel (path ++ [node]) (adjacency.targets node) where
  within := by
    intro n hn
    rcases mem_append.mp hn with hn | hn
    · exact h.within n hn
    · exact h.known n hn
  fuel := by
    have hfuel := h.fuel
    rw [length_append, length_singleton]
    omega
  known := fun target htarget => hclosed node target htarget
  reached := by
    intro target htarget
    obtain ⟨start, hstart, hreach⟩ := h.reached node (mem_singleton_self node)
    exact ⟨start, hstart, hreach.tail htarget⟩
  edge := by
    intro last hlast target htarget
    rw [getLast?_concat] at hlast
    exact Option.some.inj hlast ▸ htarget

theorem closedPath_of_mem (hchain : search.path.IsChain adjacency.Edge)
    (hmem : node ∈ search.path)
    (hedge : ∀ last, search.path.getLast? = some last → adjacency.Edge last node) :
    adjacency.ClosedPath (search.path.drop (search.path.idxOf node) ++ [node]) := by
  have hdrop : search.path.drop (search.path.idxOf node) =
      node :: search.path.drop (search.path.idxOf node + 1) := by
    rw [drop_eq_getElem_cons (idxOf_lt_length_of_mem hmem), getElem_idxOf]
  refine ⟨?_, ?_, ?_⟩
  · refine (hchain.drop _).append (isChain_singleton node) fun last hlast target htarget => ?_
    -- the last node of the part is the last node of the path
    have hpath : search.path.getLast? = some last := by
      rw [← take_append_drop (search.path.idxOf node) search.path]
      exact mem_getLast?_append_of_mem_getLast? hlast
    obtain rfl : node = target := Option.some.inj htarget
    exact hedge last hpath
  · rw [getLast?_concat, hdrop]
    rfl
  · rw [hdrop, length_append, length_cons, length_singleton]
    omega

theorem visited_closeCycle (hsearch : adjacency.Searching nodes stopAtFirst search)
    (hmem : node ∈ search.path)
    (hedge : ∀ last, search.path.getLast? = some last → adjacency.Edge last node) :
    adjacency.Visited nodes stopAtFirst search [node] (search.closeCycle stopAtFirst node) := by
  have hcycle := closedPath_of_mem hsearch.chain hmem hedge
  have hreached : ∀ n ∈ search.path.drop (search.path.idxOf node) ++ [node],
      adjacency.Reachable nodes n := by
    intro n hn
    rcases mem_append.mp hn with hn | hn
    · exact hsearch.reached n (mem_of_mem_drop hn)
    · exact hsearch.reached n (mem_singleton.mp hn ▸ hmem)
  unfold CycleSearch.closeCycle
  dsimp only
  split
  · next hseen =>
    -- a cycle that was seen is one that was reported
    have hsome : search.cycles ≠ [] := fun hnone => by
      rw [hsearch.seenCycles hnone] at hseen
      cases hseen
    exact .inr ⟨rfl, hsearch, rfl, fun hnone => absurd hnone hsome,
      fun hnone => absurd hnone hsome⟩
  · have hsome : search.cycles ++ [search.path.drop (search.path.idxOf node) ++ [node]] ≠ [] :=
      append_ne_nil_of_right_ne_nil _ (cons_ne_nil _ _)
    rcases hstop : stopAtFirst
    · refine .inr ⟨rfl, ⟨hsearch.stack, hsearch.nodup, hsearch.chain, hsearch.reached, ?_,
        fun hnone => absurd hnone hsome, fun h => (by cases h),
        fun hnone => absurd hnone hsome⟩, rfl, fun hnone => absurd hnone hsome,
        fun hnone => absurd hnone hsome⟩
      intro cycle hcycles
      rcases mem_append.mp hcycles with hold | hnew
      · exact hsearch.cycles cycle hold
      · rw [mem_singleton.mp hnew]
        exact ⟨hcycle, hreached⟩
    · refine .inl ⟨rfl, rfl, _, ?_, hcycle, hreached⟩
      change search.cycles ++ [_] = _
      rw [hsearch.first hstop, nil_append]

/-- Entering a node keeps what the search has found. -/
theorem Searching.enter (h : adjacency.Searching nodes stopAtFirst search)
    (hnode : node ∉ search.path) (hreached : adjacency.Reachable nodes node)
    (hedge : ∀ last, search.path.getLast? = some last → adjacency.Edge last node) :
    adjacency.Searching nodes stopAtFirst (search.enter node) where
  stack := by simp [CycleSearch.enter, h.stack]
  nodup := by
    rw [CycleSearch.enter, nodup_append]
    exact ⟨h.nodup, by simp, by simpa using fun a ha (he : a = node) => hnode (he ▸ ha)⟩
  chain := by
    refine h.chain.append (isChain_singleton node) fun last hlast target htarget => ?_
    obtain rfl : node = target := Option.some.inj htarget
    exact hedge last hlast
  reached := by
    intro n hn
    rcases mem_append.mp hn with hn | hn
    · exact h.reached n hn
    · exact mem_singleton.mp hn ▸ hreached
  cycles := h.cycles
  seenCycles := h.seenCycles
  first := h.first
  left := by
    intro hnone n hn hpath
    simp only [CycleSearch.enter, mem_append, mem_singleton, not_or] at hn hpath
    exact h.left hnone n (hn.resolve_right hpath.2) hpath.1

/-- A node is left when its targets were visited; if there is still no cycle, the chains from them
end, and so do its own. -/
theorem Searching.leave (h : adjacency.Searching nodes stopAtFirst search)
    (hpath : search.path = path ++ [node])
    (hends : search.cycles = [] → adjacency.Ends node) :
    adjacency.Searching nodes stopAtFirst (search.leave node) where
  stack := by
    have hnodup := h.nodup
    rw [hpath, nodup_append] at hnodup
    have hnode : node ∉ path := fun hmem => hnodup.2.2 node hmem node (by simp) rfl
    simp [CycleSearch.leave, h.stack, hpath, erase_append_right _ hnode]
  nodup := h.nodup.sublist (dropLast_sublist _)
  chain := h.chain.dropLast
  reached := fun n hn => h.reached n (dropLast_subset _ hn)
  cycles := h.cycles
  seenCycles := h.seenCycles
  first := h.first
  left := by
    intro hnone n hn hleft
    simp only [CycleSearch.leave, hpath, dropLast_concat] at hn hleft
    by_cases hnode : n = node
    · exact hnode ▸ hends hnone
    · exact h.left hnone n hn (by simp [hpath, hleft, hnode])

/-- A loop over visits settles its nodes when each visit settles its node. -/
theorem visited_visitUntilStop {visit : String → CycleSearch → Bool × CycleSearch}
    (hvisit : ∀ node search, adjacency.Searching nodes stopAtFirst search → search.path = path →
      adjacency.Next nodes allNodes fuel path [node] →
      adjacency.Visited nodes stopAtFirst search [node] (visit node search)) :
    ∀ (next : List String) (search : CycleSearch), adjacency.Searching nodes stopAtFirst search →
      search.path = path → adjacency.Next nodes allNodes fuel path next →
      adjacency.Visited nodes stopAtFirst search next (visitUntilStop visit next search) := by
  intro next
  induction next with
  | nil => exact fun search hsearch _ _ => .inr ⟨rfl, hsearch, rfl, id, fun _ => by simp⟩
  | cons node rest ih =>
    intro search hsearch hpath hnext
    rw [visitUntilStop]
    rcases hvisit node search hsearch hpath (hnext.subset (by simp)) with
      ⟨hstop, hfound⟩ | ⟨hgo, hsearch', hpath', hkept, hends⟩
    · rw [if_pos hstop]
      exact .inl ⟨rfl, hfound⟩
    · rw [if_neg (by simp [hgo])]
      rcases ih _ hsearch' (hpath'.trans hpath)
          (hnext.subset fun n hn => mem_cons_of_mem node hn) with
        hfound | ⟨hgo', hsearch'', hpath'', hkept', hends'⟩
      · exact .inl hfound
      · refine .inr ⟨hgo', hsearch'', hpath''.trans hpath', fun hnone => hkept (hkept' hnone),
          fun hnone n hn => ?_⟩
        rcases mem_cons.mp hn with rfl | hn
        · exact hends (hkept' hnone) n (by simp)
        · exact hends' hnone n hn

/-- A visit settles its node. -/
theorem visited_visit
    (hclosed : ∀ source target, adjacency.Edge source target → target ∈ allNodes) (fuel : ℕ) :
    ∀ (node : String) (search : CycleSearch), adjacency.Searching nodes stopAtFirst search →
      adjacency.Next nodes allNodes fuel search.path [node] →
      adjacency.Visited nodes stopAtFirst search [node]
        (adjacency.visit stopAtFirst fuel node search) := by
  induction fuel with
  | zero =>
    intro node search hsearch hnext
    -- a path without repetition is no longer than the list of all nodes
    have hlength := (subperm_of_subset hsearch.nodup hnext.within).length_le
    have hfuel := hnext.fuel
    omega
  | succ fuel ih =>
    intro node search hsearch hnext
    have hnode := mem_singleton_self node
    have hedge := fun last hlast => hnext.edge last hlast node hnode
    rw [visit, hsearch.stack]
    by_cases honPath : node ∈ search.path
    · rw [if_pos honPath]
      exact visited_closeCycle hsearch honPath hedge
    rw [if_neg honPath]
    by_cases hvisited : node ∈ search.visited
    · rw [if_pos hvisited]
      exact .inr ⟨rfl, hsearch, rfl, id, fun hnone => by
        simpa using hsearch.left hnone node hvisited honPath⟩
    rw [if_neg hvisited]
    have henter := hsearch.enter honPath (hnext.reached node hnode) hedge
    rcases visited_visitUntilStop (fun n s hs hp hn => ih n s hs (hp ▸ hn)) _ _ henter rfl
      (hnext.enter hclosed) with ⟨hstop, hfound⟩ | ⟨hgo, hsearch', hpath, hkept, hends⟩
    · simp only [hstop, if_true]
      exact .inl ⟨hstop, hfound⟩
    · simp only [hgo, Bool.false_eq_true, if_false]
      have hends' : _ → adjacency.Ends node := fun hnone =>
        Acc.intro node fun target htarget => hends hnone target htarget
      have hback := (congrArg dropLast hpath).trans dropLast_concat
      exact .inr ⟨rfl, hsearch'.leave hpath hends', hback, hkept, fun hnone => by
        simpa using hends' hnone⟩

/-- Outside of any visit the path is empty, so every visited node was left. -/
theorem visited_visitUnvisited
    (hclosed : ∀ source target, adjacency.Edge source target → target ∈ allNodes)
    (node : String) (search : CycleSearch) (hsearch : adjacency.Searching nodes stopAtFirst search)
    (hpath : search.path = []) (hnext : adjacency.Next nodes allNodes fuel [] [node]) :
    adjacency.Visited nodes stopAtFirst search [node]
      (adjacency.visitUnvisited stopAtFirst fuel node search) := by
  rw [visitUnvisited]
  by_cases hvisited : node ∈ search.visited
  · rw [if_pos hvisited]
    exact .inr ⟨rfl, hsearch, rfl, id, fun hnone => by
      simpa using hsearch.left hnone node hvisited (by simp [hpath])⟩
  · rw [if_neg hvisited]
    exact visited_visit hclosed fuel node search hsearch (hpath.symm ▸ hnext)

end AdjacencyGraph

/-! ### What the search finds -/

theorem AdjacencyGraph.Edge.mem_entries {adjacency : AdjacencyGraph} {source target : String}
    (h : adjacency.Edge source target) : target ∈ adjacency.entries.flatMap Prod.snd := by
  rw [AdjacencyGraph.Edge, AdjacencyGraph.targets] at h
  rcases hget : adjacency.get? source with _ | targets
  · simp [hget] at h
  · rw [hget, Option.getD_some] at h
    exact mem_flatMap.mpr ⟨_, OrderedMap.get?_eq_some_iff.mp hget, h⟩

/-- The search reports cycles that can be reached, at most one if it stops at the first; when it
reports none, every chain from every node ends. -/
theorem detectCycles_spec (adjacency : AdjacencyGraph) (nodes : List String) (stopAtFirst : Bool) :
    (∀ cycle ∈ detectCycles adjacency nodes stopAtFirst,
      adjacency.ClosedPath cycle ∧ ∀ node ∈ cycle, adjacency.Reachable nodes node) ∧
    (stopAtFirst = true → (detectCycles adjacency nodes stopAtFirst).length ≤ 1) ∧
    (detectCycles adjacency nodes stopAtFirst = [] → ∀ node ∈ nodes, adjacency.Ends node) := by
  have hclosed : ∀ source target, adjacency.Edge source target →
      target ∈ nodes ++ adjacency.entries.flatMap Prod.snd :=
    fun source target h => mem_append_right _ h.mem_entries
  have hinitial : adjacency.Searching nodes stopAtFirst ⟨[], [], [], [], []⟩ :=
    ⟨rfl, nodup_nil, isChain_nil, by simp, by simp, fun _ => rfl, fun _ => rfl, by simp⟩
  have hnext : adjacency.Next nodes (nodes ++ adjacency.entries.flatMap Prod.snd)
      (nodes.length + (adjacency.entries.flatMap Prod.snd).length + 1) [] nodes :=
    ⟨by simp, by simp, fun n hn => mem_append_left _ hn, fun n hn => ⟨n, hn, .refl⟩, by simp⟩
  rcases AdjacencyGraph.visited_visitUntilStop (AdjacencyGraph.visited_visitUnvisited hclosed) nodes
    _ hinitial rfl hnext with ⟨-, -, cycle, hcycle, hfound⟩ | ⟨-, hsearch, -, -, hends⟩
  · change detectCycles adjacency nodes stopAtFirst = [cycle] at hcycle
    rw [hcycle]
    exact ⟨fun c hc => mem_singleton.mp hc ▸ hfound, fun _ => le_rfl, fun h => by cases h⟩
  · exact ⟨hsearch.cycles, fun hstop => by
      rw [show detectCycles adjacency nodes stopAtFirst = [] from hsearch.first hstop]
      exact Nat.zero_le 1, hends⟩

theorem AdjacencyGraph.ClosedPath.transGen {adjacency : AdjacencyGraph} {cycle : List String}
    (h : adjacency.ClosedPath cycle) :
    ∃ node rest, cycle = node :: rest ∧ Relation.TransGen adjacency.Edge node node := by
  obtain ⟨hedges, hclosed, hlength⟩ := h
  rcases cycle with _ | ⟨node, _ | ⟨second, rest⟩⟩
  · simp at hlength
  · simp at hlength
  · refine ⟨node, _, rfl, ?_⟩
    obtain ⟨hfirst, hrest⟩ := isChain_cons_cons.mp hedges
    have hreach := relationReflTransGen_of_exists_isChain_cons rest hrest rfl
    have hlast : (second :: rest).getLast (cons_ne_nil _ _) = node := by
      rw [getLast?_cons_cons, getLast?_eq_some_getLast (cons_ne_nil _ _)] at hclosed
      exact Option.some.inj hclosed
    rw [hlast] at hreach
    exact .head' hfirst hreach

/-- The search that stops at the first cycle either finds one and nothing else, or every chain from
every node ends. -/
theorem detectCycles_cases (adjacency : AdjacencyGraph) (nodes : List String) :
    (∃ node rest, detectCycles adjacency nodes true = [node :: rest] ∧
      Relation.TransGen adjacency.Edge node node) ∨
    detectCycles adjacency nodes true = [] ∧ ∀ node ∈ nodes, adjacency.Ends node := by
  obtain ⟨hcycles, hlength, hends⟩ := detectCycles_spec adjacency nodes true
  rcases hfound : detectCycles adjacency nodes true with _ | ⟨cycle, rest⟩
  · exact .inr ⟨rfl, hends hfound⟩
  · have hrest : rest = [] := by
      have hle := hlength rfl
      rw [hfound, length_cons] at hle
      exact length_eq_zero_iff.mp (by omega)
    obtain ⟨node, path, rfl, hcycle⟩ := (hcycles cycle (by simp [hfound])).1.transGen
    exact .inl ⟨node, path, by rw [hrest], hcycle⟩

/-- **The search is sound and complete**, whether it stops at the first cycle or goes on: it reports
a cycle exactly when one can be reached from the nodes, and each report is a closed path along
edges. -/
theorem detectCycles_sound_complete (adjacency : AdjacencyGraph) (nodes : List String)
    (stopAtFirst : Bool) :
    (detectCycles adjacency nodes stopAtFirst ≠ [] ↔
      ∃ node, adjacency.Reachable nodes node ∧ Relation.TransGen adjacency.Edge node node) ∧
    ∀ cycle ∈ detectCycles adjacency nodes stopAtFirst, adjacency.ClosedPath cycle := by
  obtain ⟨hcycles, -, hends⟩ := detectCycles_spec adjacency nodes stopAtFirst
  refine ⟨⟨fun hsome => ?_, ?_⟩, fun cycle hcycle => (hcycles cycle hcycle).1⟩
  · obtain ⟨cycle, hcycle⟩ := List.exists_mem_of_ne_nil _ hsome
    obtain ⟨hclosed, hreached⟩ := hcycles cycle hcycle
    obtain ⟨node, rest, rfl, hloop⟩ := hclosed.transGen
    exact ⟨node, hreached node List.mem_cons_self, hloop⟩
  · rintro ⟨node, ⟨start, hstart, hreach⟩, hloop⟩ hnone
    exact ((hends hnone start hstart).of_reflTransGen hreach).not_cycle hloop

/-- Where all targets are among the nodes, the search that stops at the first cycle finds none
exactly when the graph has none. -/
theorem detectCycles_eq_nil_iff {adjacency : AdjacencyGraph} {nodes : List String}
    (hnodes : ∀ source target, adjacency.Edge source target → target ∈ nodes) :
    detectCycles adjacency nodes true = [] ↔
      ∀ node, ¬ Relation.TransGen adjacency.Edge node node := by
  rcases detectCycles_cases adjacency nodes with ⟨node, rest, hfound, hcycle⟩ | ⟨hnone, hends⟩
  · rw [hfound]
    exact ⟨fun h => absurd h (by simp), fun h => absurd hcycle (h node)⟩
  · refine ⟨fun _ node hcycle => ?_, fun _ => hnone⟩
    -- a node on a cycle is the target of an edge
    obtain ⟨source, -, hedge⟩ := Relation.TransGen.tail'_iff.mp hcycle
    exact (hends node (hnodes source node hedge)).not_cycle hcycle

end IdleEngine
