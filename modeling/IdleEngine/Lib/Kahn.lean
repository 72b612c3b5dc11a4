import IdleEngine.Lib.OrderedMap
import Mathlib.Data.List.Count
import Mathlib.Data.List.Perm.Subperm
import Mathlib.Tactic.Ring

/-!
# Topological sorting by in-degrees

Kahn's algorithm keeps, for each node, how many of its sources have not been put in order, and a
queue of the nodes where this number is zero. It takes a node from the queue, puts it behind the
others, and lowers the numbers of its targets; the queue is sorted after every change, by whatever
puts its elements in some order.

`Sorting` is the invariant of the loops. When the queue is empty (`loop_spec`), every node in order
stands behind all its sources, and every other node has a source that is not in order either.
-/

namespace Kahn

open OrderedMap List

variable {V : Type} [DecidableEq V]

/-- The variables of the sort. -/
structure State (V : Type) [DecidableEq V] where
  zeroInDegree : List V
  ordered : List V
  inDegree : OrderedMap V ℤ

/-- One of the sources of the node is in order now. -/
def relax (sort : List V → List V) (s : State V) (neighbour : V) : State V :=
  match s.inDegree.get? neighbour with
  | none => s
  | some current =>
      if current - 1 = 0 then
        { s with
          inDegree := s.inDegree.set neighbour (current - 1)
          zeroInDegree := sort (s.zeroInDegree ++ [neighbour]) }
      else { s with inDegree := s.inDegree.set neighbour (current - 1) }

/-- Nodes are put in order until none is ready. -/
def loop (sort : List V → List V) (targets : V → List V) : ℕ → State V → State V
  | 0, s => s
  | fuel + 1, s =>
      match s.zeroInDegree with
      | [] => s
      | v :: rest =>
          loop sort targets fuel ((sort (targets v)).foldl (relax sort)
            { s with zeroInDegree := rest, ordered := s.ordered ++ [v] })

/-- How many sources of a node are not in order. -/
def remaining (targets : V → List V) (nodes ordered : List V) (w : V) : ℕ :=
  nodes.countP fun v => decide (w ∈ targets v ∧ v ∉ ordered)

/-- The invariant. The targets of the last node in order that are `pending` are still counted with
that source. -/
structure Sorting (targets : V → List V) (nodes pending : List V) (s : State V) : Prop where
  known : ∀ v ∈ s.ordered ++ s.zeroInDegree, v ∈ nodes
  nodup : (s.ordered ++ s.zeroInDegree).Nodup
  degree : ∀ w ∈ nodes, s.inDegree.get? w =
    some ((remaining targets nodes s.ordered w : ℤ) + if w ∈ pending then 1 else 0)
  ready : ∀ w ∈ nodes, w ∈ s.ordered ++ s.zeroInDegree ↔ s.inDegree.get? w = some 0
  earlier : ∀ before v after, s.ordered = before ++ v :: after →
    ∀ u ∈ nodes, v ∈ targets u → u ∈ before

variable {sort : List V → List V} {targets : V → List V} {nodes pending : List V} {s : State V}

/-- A node that is put in order is no longer a source that its targets wait for. -/
theorem remaining_append {ordered : List V} {v : V} (hnodes : nodes.Nodup) (hv : v ∈ nodes)
    (hnew : v ∉ ordered) (w : V) :
    remaining targets nodes ordered w =
      remaining targets nodes (ordered ++ [v]) w + if w ∈ targets v then 1 else 0 := by
  obtain ⟨before, after, rfl⟩ := append_of_mem hv
  have happart := nodup_middle.mp hnodes
  obtain ⟨hout, -⟩ := nodup_cons.mp happart
  have hsame : ∀ part : List V, (∀ u ∈ part, u ≠ v) →
      part.countP (fun u => decide (w ∈ targets u ∧ u ∉ ordered ++ [v])) =
        part.countP fun u => decide (w ∈ targets u ∧ u ∉ ordered) := by
    intro part hpart
    refine countP_congr fun u hu => ?_
    simp [hpart u hu]
  have hbefore := hsame before fun u hu heq => hout (mem_append_left _ (heq ▸ hu))
  have hafter := hsame after fun u hu heq => hout (mem_append_right _ (heq ▸ hu))
  simp only [remaining, countP_append, countP_cons, hbefore, hafter]
  by_cases htarget : w ∈ targets v
  · simp [htarget, hnew]
    omega
  · simp [htarget]

/-- **Taking a ready node**: all its sources are in order. -/
theorem Sorting.take (h : Sorting targets nodes [] s) (hnodes : nodes.Nodup) {v : V} {rest : List V}
    (hready : s.zeroInDegree = v :: rest) :
    Sorting targets nodes (targets v)
      { s with zeroInDegree := rest, ordered := s.ordered ++ [v] } := by
  have hsame : s.ordered ++ [v] ++ rest = s.ordered ++ s.zeroInDegree := by
    rw [hready, append_assoc]
    rfl
  have hmem : v ∈ s.ordered ++ s.zeroInDegree := by
    rw [hready]
    exact mem_append_right _ mem_cons_self
  have hv := h.known v hmem
  have hnew : v ∉ s.ordered := by
    intro hold
    have hnodup := h.nodup
    rw [hready] at hnodup
    exact (nodup_append.mp hnodup).2.2 v hold v mem_cons_self rfl
  have hnone : remaining targets nodes s.ordered v = 0 := by
    have hdegree := (h.degree v hv).symm.trans ((h.ready v hv).mp hmem)
    simpa using hdegree
  refine ⟨?_, ?_, ?_, ?_, ?_⟩
  · rw [hsame]
    exact h.known
  · rw [hsame]
    exact h.nodup
  · intro w hw
    rw [h.degree w hw, remaining_append hnodes hv hnew w]
    push_cast
    simp
  · intro w hw
    rw [hsame]
    exact h.ready w hw
  · intro before u after hsplit w hw htarget
    rcases eq_nil_or_concat after with rfl | ⟨after, last, rfl⟩
    · obtain ⟨rfl, hlast⟩ := append_inj' hsplit rfl
      obtain rfl : v = u := by simpa using hlast
      -- no source of the node is left
      by_contra hleft
      exact absurd hnone (countP_pos_iff.mpr ⟨w, hw, by simpa using ⟨htarget, hleft⟩⟩).ne'
    · have hsplit' : s.ordered ++ [v] = (before ++ u :: after) ++ [last] := by simpa using hsplit
      exact h.earlier before u after (append_inj' hsplit' rfl).1 w hw htarget

/-- **Lowering the number of one target.** -/
theorem Sorting.relax (hsort : ∀ l : List V, (sort l).Perm l) {neighbour : V}
    (h : Sorting targets nodes (neighbour :: pending) s) (hnode : neighbour ∈ nodes)
    (hnew : neighbour ∉ pending) : Sorting targets nodes pending (relax sort s neighbour) := by
  have hdegree := h.degree neighbour hnode
  rw [if_pos mem_cons_self] at hdegree
  -- the number of the target, and those of the others
  have hlowered : ∀ w ∈ nodes, (s.inDegree.set neighbour
      (remaining targets nodes s.ordered neighbour : ℤ)).get? w =
        some ((remaining targets nodes s.ordered w : ℤ) + if w ∈ pending then 1 else 0) := by
    intro w hw
    rw [get?_set]
    split
    · next heq =>
      rw [← heq, if_neg hnew, add_zero]
    · next hne =>
      rw [h.degree w hw]
      simp [mem_cons, Ne.symm hne]
  have hother : ∀ w ∈ nodes, neighbour ≠ w →
      (s.inDegree.set neighbour (remaining targets nodes s.ordered neighbour : ℤ)).get? w =
        s.inDegree.get? w := by
    intro w _ hne
    rw [get?_set, if_neg hne]
  have hwaiting : neighbour ∉ s.ordered ++ s.zeroInDegree := by
    rw [h.ready neighbour hnode, hdegree]
    intro hzero
    have hzero := Option.some.inj hzero
    omega
  have hnext : (remaining targets nodes s.ordered neighbour : ℤ) + 1 - 1 =
      remaining targets nodes s.ordered neighbour := by ring
  rw [Kahn.relax, hdegree]
  dsimp only
  rw [hnext]
  split
  · next hzero =>
    have hperm : (s.ordered ++ sort (s.zeroInDegree ++ [neighbour])).Perm
        (neighbour :: (s.ordered ++ s.zeroInDegree)) := by
      refine (List.Perm.append_left _ (hsort _)).trans ?_
      rw [← append_assoc]
      exact perm_append_singleton _ _
    refine ⟨?_, ?_, hlowered, ?_, h.earlier⟩
    · intro w hw
      rcases mem_cons.mp (hperm.mem_iff.mp hw) with rfl | hw
      · exact hnode
      · exact h.known w hw
    · exact hperm.nodup_iff.mpr (nodup_cons.mpr ⟨hwaiting, h.nodup⟩)
    · intro w hw
      rw [hperm.mem_iff, mem_cons]
      by_cases heq : neighbour = w
      · subst heq
        simp [get?_set, hzero]
      · rw [hother w hw heq, ← h.ready w hw]
        simp [Ne.symm heq]
  · next hpos =>
    refine ⟨h.known, h.nodup, hlowered, ?_, h.earlier⟩
    intro w hw
    by_cases heq : neighbour = w
    · subst heq
      rw [get?_set, if_pos rfl]
      refine iff_of_false hwaiting fun hzero => hpos (Option.some.inj hzero)
    · rw [hother w hw heq]
      exact h.ready w hw

/-- Lowering the numbers of all targets. -/
theorem Sorting.relaxAll (hsort : ∀ l : List V, (sort l).Perm l) {neighbours : List V}
    (h : Sorting targets nodes neighbours s) (hnodes : ∀ w ∈ neighbours, w ∈ nodes)
    (hnodup : neighbours.Nodup) :
    Sorting targets nodes [] (neighbours.foldl (Kahn.relax sort) s) := by
  induction neighbours generalizing s with
  | nil => exact h
  | cons neighbour rest ih =>
    obtain ⟨hnew, hrest⟩ := nodup_cons.mp hnodup
    exact ih (h.relax hsort (hnodes neighbour mem_cons_self) hnew)
      (fun w hw => hnodes w (mem_cons_of_mem _ hw)) hrest

/-- The pending targets may be named in any order. -/
theorem Sorting.perm {pending' : List V} (h : Sorting targets nodes pending s)
    (hperm : pending.Perm pending') : Sorting targets nodes pending' s :=
  ⟨h.known, h.nodup, fun w hw => by rw [h.degree w hw]; simp only [hperm.mem_iff], h.ready,
    h.earlier⟩

/-- The nodes whose sources are counted stay the same. -/
theorem keys_relax (sort : List V → List V) (s : State V) (neighbour : V) :
    (Kahn.relax sort s neighbour).inDegree.entries.map Prod.fst =
      s.inDegree.entries.map Prod.fst := by
  rw [Kahn.relax]
  split
  · rfl
  · next current hcurrent =>
    have hmem : neighbour ∈ s.inDegree.entries.map Prod.fst := by
      rw [mem_keys_iff, hcurrent]
      rfl
    split
    · exact keys_set hmem _
    · exact keys_set hmem _

theorem keys_loop (sort : List V → List V) (targets : V → List V) (fuel : ℕ) (s : State V) :
    (loop sort targets fuel s).inDegree.entries.map Prod.fst =
      s.inDegree.entries.map Prod.fst := by
  induction fuel generalizing s with
  | zero => rfl
  | succ fuel ih =>
    rw [loop]
    split
    · rfl
    · next v rest _ =>
      rw [ih]
      refine foldlRecOn (motive := fun s' : State V => s'.inDegree.entries.map Prod.fst =
        s.inDegree.entries.map Prod.fst) _ _ rfl fun s' h neighbour _ => ?_
      exact (keys_relax sort s' neighbour).trans h

/-- **The sort**: it ends with an empty queue. -/
theorem loop_spec (hsort : ∀ l : List V, (sort l).Perm l) (hnodes : nodes.Nodup)
    (htargets : ∀ v ∈ nodes, (targets v).Nodup ∧ ∀ w ∈ targets v, w ∈ nodes) (fuel : ℕ)
    (h : Sorting targets nodes [] s) (hfuel : nodes.length ≤ fuel + s.ordered.length) :
    Sorting targets nodes [] (loop sort targets fuel s) ∧
      (loop sort targets fuel s).zeroInDegree = [] := by
  induction fuel generalizing s with
  | zero =>
    refine ⟨h, eq_nil_of_length_eq_zero ?_⟩
    -- all nodes are in order already
    have hlength := (subperm_of_subset h.nodup h.known).length_le
    rw [length_append] at hlength
    change s.zeroInDegree.length = 0
    omega
  | succ fuel ih =>
    rw [loop]
    split
    · next hnone => exact ⟨h, hnone⟩
    · next v rest hready =>
      have hv : v ∈ nodes := h.known v (by rw [hready]; simp)
      obtain ⟨hnodup, hknown⟩ := htargets v hv
      have hperm := hsort (targets v)
      have hnext := Sorting.relaxAll hsort ((h.take hnodes hready).perm hperm.symm)
        (fun w hw => hknown w (hperm.mem_iff.mp hw)) (hperm.nodup_iff.mpr hnodup)
      refine ih hnext ?_
      have hordered : ∀ (neighbours : List V) (s : State V),
          (neighbours.foldl (Kahn.relax sort) s).ordered = s.ordered := by
        intro neighbours
        induction neighbours with
        | nil => exact fun s => rfl
        | cons neighbour rest ih =>
          intro s
          rw [foldl_cons, ih, Kahn.relax]
          split
          · rfl
          · split
            · rfl
            · rfl
      rw [hordered, length_append, length_singleton]
      omega

end Kahn
