import IdleEngine.Lib.OrderedMap
import Mathlib.Data.List.Perm.Subperm
import Mathlib.Logic.Relation

/-!
# Depth-first search for a cycle

The search marks a node when it enters it and again when it leaves it, and stops at a node that was
entered and not left. It finds a cycle exactly when one can be reached from the node it starts at
(`detectCycle_cases`): of a node that was left every chain of edges ends, and the nodes that
were entered and not left are a path to the node that is visited. The fuel bounds how deep the
visits nest; no path is longer than there are nodes.
-/

open List

namespace DepthFirst

open Relation OrderedMap

variable {V : Type}

variable {targets : V → List V}

/-- There is an edge between two nodes. -/
def Edge (targets : V → List V) (source target : V) : Prop := target ∈ targets source

/-- Every chain of edges from a node ends. -/
def Ends (targets : V → List V) (v : V) : Prop :=
  Acc (fun target source => Edge targets source target) v

/-- The path leads from the root to each of the nodes, and the fuel lasts for all nodes off it. -/
structure Reaches (targets : V → List V) (root : V) (nodes : List V) (fuel : ℕ)
    (path vs : List V) : Prop where
  within : ∀ p ∈ path, p ∈ nodes
  fuel : nodes.length < fuel + path.length
  next : ∀ v ∈ vs, v ∈ nodes
  root : ∀ v ∈ vs, ReflTransGen (Edge targets) root v
  chain : ∀ p ∈ path, ∀ v ∈ vs, TransGen (Edge targets) p v

variable {root v : V} {nodes path vs : List V} {fuel : ℕ}

/-- A part of the nodes. -/
theorem Reaches.subset {vs' : List V} (h : Reaches targets root nodes fuel path vs)
    (hsub : ∀ v ∈ vs', v ∈ vs) : Reaches targets root nodes fuel path vs' :=
  ⟨h.within, h.fuel, fun v hv => h.next v (hsub v hv), fun v hv => h.root v (hsub v hv),
    fun p hp v hv => h.chain p hp v (hsub v hv)⟩

/-- The targets of the node that is entered. -/
theorem Reaches.enter (hclosed : ∀ source ∈ nodes, ∀ target, Edge targets source target →
      target ∈ nodes) (h : Reaches targets root nodes (fuel + 1) path [v]) :
    Reaches targets root nodes fuel (path ++ [v]) (targets v) := by
  have hv := mem_singleton_self v
  refine ⟨?_, ?_, ?_, ?_, ?_⟩
  · intro p hp
    rcases mem_append.mp hp with hp | hp
    · exact h.within p hp
    · exact h.next p hp
  · have hfuel := h.fuel
    rw [length_append, length_singleton]
    omega
  · exact fun target htarget => hclosed v (h.next v hv) target htarget
  · exact fun target htarget => (h.root v hv).tail htarget
  · intro p hp target htarget
    rcases mem_append.mp hp with hp | hp
    · exact (h.chain p hp v hv).tail htarget
    · obtain rfl := mem_singleton.mp hp
      exact .single htarget

/-! ### The search -/

inductive Mark
  | visiting
  | visited
  deriving DecidableEq

variable [DecidableEq V]

/-- The marks of the nodes that were entered. -/
abbrev Marks (V : Type) [DecidableEq V] := OrderedMap V Mark

/-- A loop over visits that ends as soon as one of them finds a cycle. -/
def visitAny (visit : V → Marks V → Bool × Marks V) : List V → Marks V → Bool × Marks V
  | [], marks => (false, marks)
  | v :: vs, marks =>
    if (visit v marks).1 then (true, (visit v marks).2)
    else visitAny visit vs (visit v marks).2

/-- The search from a node. -/
def detectCycle (targets : V → List V) : ℕ → V → Marks V → Bool × Marks V
  | 0, _, marks => (false, marks)
  | fuel + 1, v, marks =>
    match marks.get? v with
    | some .visiting => (true, marks)
    | some .visited => (false, marks)
    | none =>
      let found := visitAny (detectCycle targets fuel) (targets v) (marks.set v .visiting)
      if found.1 then found else (false, found.2.set v .visited)

variable {marks : Marks V}

/-- The marks of a search on its way along a path. -/
structure Searching (targets : V → List V) (path : List V) (marks : Marks V) : Prop where
  nodup : path.Nodup
  visiting : ∀ v, marks.get? v = some .visiting ↔ v ∈ path
  visited : ∀ v, marks.get? v = some .visited → Ends targets v

/-- What visiting some nodes leads to: a cycle that can be reached, or the same path and nodes whose
chains end. -/
def Settled (targets : V → List V) (root : V) (path vs : List V) (result : Bool × Marks V) : Prop :=
  (result.1 = true ∧
    ∃ v, ReflTransGen (Edge targets) root v ∧ TransGen (Edge targets) v v) ∨
  (result.1 = false ∧ Searching targets path result.2 ∧ ∀ v ∈ vs, Ends targets v)

/-- Entering a node keeps what the search has settled. -/
theorem Searching.enter (h : Searching targets path marks) (hv : marks.get? v = none) :
    Searching targets (path ++ [v]) (marks.set v .visiting) := by
  have hpath : v ∉ path := by
    intro hmem
    rw [(h.visiting v).mpr hmem] at hv
    cases hv
  refine ⟨?_, fun w => ?_, fun w hw => ?_⟩
  · rw [nodup_append]
    refine ⟨h.nodup, nodup_singleton v, fun a ha b hb hab => hpath ?_⟩
    rwa [← mem_singleton.mp hb, ← hab]
  · rw [get?_set, mem_append, mem_singleton]
    by_cases hw : v = w
    · simp [hw]
    · rw [if_neg hw, h.visiting, or_iff_left (Ne.symm hw)]
  · rw [get?_set] at hw
    split at hw
    · cases hw
    · exact h.visited w hw

/-- Leaving a node whose chains end keeps what the search has settled. -/
theorem Searching.leave (h : Searching targets (path ++ [v]) marks) (hends : Ends targets v) :
    Searching targets path (marks.set v .visited) := by
  have hnodup := nodup_append.mp h.nodup
  have hpath : v ∉ path := fun hmem => hnodup.2.2 v hmem v (mem_singleton_self v) rfl
  refine ⟨hnodup.1, fun w => ?_, fun w hw => ?_⟩
  · rw [get?_set]
    by_cases hw : v = w
    · subst hw
      simpa using hpath
    · rw [if_neg hw, h.visiting, mem_append, mem_singleton, or_iff_left (Ne.symm hw)]
  · rw [get?_set] at hw
    split at hw
    · next heq => exact heq ▸ hends
    · exact h.visited w hw

/-- A loop over visits settles its nodes when each visit settles its node. -/
theorem settled_visitAny {visit : V → Marks V → Bool × Marks V}
    (hvisit : ∀ v marks, Searching targets path marks → Reaches targets root nodes fuel path [v] →
      Settled targets root path [v] (visit v marks)) :
    ∀ (vs : List V) (marks : Marks V), Searching targets path marks →
      Reaches targets root nodes fuel path vs →
      Settled targets root path vs (visitAny visit vs marks) := by
  intro vs
  induction vs with
  | nil => exact fun marks hsearch _ => .inr ⟨rfl, hsearch, by simp⟩
  | cons v vs ih =>
    intro marks hsearch hreaches
    rw [visitAny]
    rcases hvisit v marks hsearch (hreaches.subset (by simp)) with
      ⟨hfound, hcycle⟩ | ⟨hnone, hsearch', hends⟩
    · rw [if_pos hfound]
      exact .inl ⟨rfl, hcycle⟩
    · rw [if_neg (by simp [hnone])]
      rcases ih _ hsearch' (hreaches.subset fun w hw => mem_cons_of_mem v hw) with
        hfound | ⟨hnone', hsearch'', hends'⟩
      · exact .inl hfound
      · refine .inr ⟨hnone', hsearch'', fun w hw => ?_⟩
        rcases mem_cons.mp hw with rfl | hw
        · exact hends w (mem_singleton_self w)
        · exact hends' w hw

/-- A visit settles its node. -/
theorem settled_detectCycle
    (hclosed : ∀ source ∈ nodes, ∀ target, Edge targets source target → target ∈ nodes) :
    ∀ (fuel : ℕ) {path : List V} (v : V) (marks : Marks V), Searching targets path marks →
      Reaches targets root nodes fuel path [v] →
      Settled targets root path [v] (detectCycle targets fuel v marks) := by
  intro fuel
  induction fuel with
  | zero =>
    intro path v marks hsearch hreaches
    -- a path without repetition is no longer than the list of all nodes
    have hlength := (subperm_of_subset hsearch.nodup hreaches.within).length_le
    have hfuel := hreaches.fuel
    omega
  | succ fuel ih =>
    intro path v marks hsearch hreaches
    have hv := mem_singleton_self v
    rw [detectCycle]
    cases hmark : marks.get? v with
    | some mark =>
      cases mark with
      | visiting =>
        have hpath := (hsearch.visiting v).mp hmark
        exact .inl ⟨rfl, v, hreaches.root v hv, hreaches.chain v hpath v hv⟩
      | visited => exact .inr ⟨rfl, hsearch, by simpa using hsearch.visited v hmark⟩
    | none =>
      dsimp only
      rcases settled_visitAny (fun w marks => ih w marks) (targets v) _ (hsearch.enter hmark)
        (hreaches.enter hclosed) with ⟨hfound, hcycle⟩ | ⟨hnone, hsearch', hends⟩
      · rw [if_pos hfound]
        exact .inl ⟨hfound, hcycle⟩
      · have hnode : Ends targets v := Acc.intro v fun target htarget => hends target htarget
        rw [if_neg (by simp [hnone])]
        exact .inr ⟨rfl, hsearch'.leave hnode, by simpa using hnode⟩

/-- The search from the root either finds a cycle that can be reached, or all chains end. -/
theorem detectCycle_cases (hroot : root ∈ nodes)
    (hclosed : ∀ source ∈ nodes, ∀ target, Edge targets source target → target ∈ nodes)
    (hfuel : nodes.length < fuel) :
    ((detectCycle targets fuel root OrderedMap.empty).1 = true ∧
      ∃ v, ReflTransGen (Edge targets) root v ∧ TransGen (Edge targets) v v) ∨
    ((detectCycle targets fuel root OrderedMap.empty).1 = false ∧ Ends targets root) := by
  have hsearch : Searching targets [] (OrderedMap.empty : Marks V) :=
    ⟨nodup_nil, fun v => by simp [get?_empty], fun v hv => by
      rw [get?_empty] at hv
      cases hv⟩
  have hreaches : Reaches targets root nodes fuel [] [root] :=
    ⟨by simp, by simpa using hfuel, by simpa using hroot, by simpa using .refl, by simp⟩
  rcases settled_detectCycle hclosed fuel root _ hsearch hreaches with hfound | ⟨hnone, -, hends⟩
  · exact .inl hfound
  · exact .inr ⟨hnone, hends root (mem_singleton_self root)⟩

end DepthFirst
