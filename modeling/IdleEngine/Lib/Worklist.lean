import IdleEngine.Lib.Stateful
import Mathlib.Logic.Hydra

/-!
# Loops over a pool of work

A loop takes items out of a pool, one in each round, and a round may put new items back. If the new
items are smaller than the one that was taken out, by a relation for which every item of the pool is
accessible, then the loop ends, whichever item each round takes (`ends_of_replaces`): the
replacement of an item by smaller ones is well-founded on multisets (`Relation.CutExpand`).
-/

namespace Worklist

open Relation

variable {ε σ α : Type}

/-- A round is repeated for as long as it answers that it did something; the loop answers whether it
came to an end within the fuel. -/
def repeatWhile (round : EStateM ε σ Bool) : ℕ → EStateM ε σ Bool
  | 0 => pure false
  | fuel + 1 => do
    let more ← round
    if more then repeatWhile round fuel else pure true

/-- The loop ends, with an answer or by throwing. -/
def Ends (round : EStateM ε σ Bool) (s : σ) : Prop :=
  ∃ fuel, ∀ s', repeatWhile round fuel s ≠ .ok false s'

/-- One item of a pool is replaced by smaller ones. -/
def Replaces (r : α → α → Prop) (after before : Multiset α) : Prop :=
  ∃ (a : α) (rest smaller : Multiset α),
    before = a ::ₘ rest ∧ after = smaller + rest ∧ ∀ b ∈ smaller, r b a

variable {r : α → α → Prop}

/-- What is smaller than accessible items is accessible. -/
theorem Replaces.acc {after before : Multiset α} (h : Replaces r after before)
    (hbefore : ∀ a ∈ before, Acc r a) : ∀ a ∈ after, Acc r a := by
  obtain ⟨a, rest, smaller, rfl, rfl, hsmaller⟩ := h
  intro b hb
  rcases Multiset.mem_add.mp hb with hb | hb
  · exact (hbefore a (Multiset.mem_cons_self a rest)).inv (hsmaller b hb)
  · exact hbefore b (Multiset.mem_cons_of_mem hb)

/-- **Replacement by smaller items is well-founded on pools of accessible items.** -/
theorem acc_replaces {pool : Multiset α} (hpool : ∀ a ∈ pool, Acc r a) :
    Acc (Replaces r) pool := by
  -- the relation is cut down to accessible items, where it is irreflexive
  have hirrefl : Std.Irrefl fun b a => r b a ∧ Acc r a :=
    ⟨fun a h => h.2.rec (fun a _ ih h => ih a h.1 h) h⟩
  have hacc : ∀ a, Acc r a → Acc (fun b a => r b a ∧ Acc r a) a :=
    fun a ha => Subrelation.accessible (fun h => h.1) ha
  have hcut : Acc (CutExpand fun b a => r b a ∧ Acc r a) pool :=
    acc_of_singleton fun a ha => (hacc a (hpool a ha)).cutExpand
  induction hcut with
  | intro pool _ ih =>
    refine .intro pool fun after hafter => ?_
    refine ih after ?_ (hafter.acc hpool)
    obtain ⟨a, rest, smaller, rfl, rfl, hsmaller⟩ := hafter
    have ha := hpool a (Multiset.mem_cons_self a rest)
    refine ⟨smaller, a, fun b hb => ⟨hsmaller b hb, ha⟩, ?_⟩
    rw [← Multiset.singleton_add, add_comm smaller rest, add_right_comm, add_comm rest]

variable {round : EStateM ε σ Bool}

/-- **A loop whose rounds replace items by smaller ones ends.** -/
theorem ends_of_replaces (pool : σ → Multiset α)
    (hround : ∀ s s', round s = .ok true s' → Replaces r (pool s') (pool s)) {s : σ}
    (hpool : ∀ a ∈ pool s, Acc r a) : Ends round s := by
  have hacc := acc_replaces hpool
  generalize hp : pool s = p at hacc
  induction hacc generalizing s with
  | intro p _ ih =>
    subst hp
    cases hrun : round s with
    | error e s' =>
      refine ⟨1, fun t h => ?_⟩
      rw [repeatWhile, Stateful.run_bind_error hrun] at h
      cases h
    | ok more s' =>
      cases more with
      | false =>
        refine ⟨1, fun t h => ?_⟩
        rw [repeatWhile, Stateful.run_bind_ok hrun] at h
        cases h
      | true =>
        have hreplaces := hround s s' hrun
        obtain ⟨fuel, hfuel⟩ := ih _ hreplaces (hreplaces.acc hpool) rfl
        refine ⟨fuel + 1, fun t h => hfuel t ?_⟩
        rw [repeatWhile, Stateful.run_bind_ok hrun] at h
        exact h

end Worklist
