import Mathlib.Data.List.Nodup

/-!
# Merging streams by their earliest head

A list of tagged items in strictly increasing key order is spread over one stream per tag. Looking
only at the heads of the streams, the item with the smallest key is the first item of the list
(`earliest_heads`): repeatedly taking the earliest head gives the list back in its order, whatever
the tags.
-/

namespace EarliestHead

open List

variable {α β : Type*}

/-- The items with one tag. -/
def stream (tag : ℕ) (items : List (ℕ × α)) : List α :=
  items.filterMap fun item => if item.1 = tag then some item.2 else none

@[simp]
theorem stream_nil (tag : ℕ) : stream tag ([] : List (ℕ × α)) = [] := rfl

theorem stream_append (tag : ℕ) (items items' : List (ℕ × α)) :
    stream tag (items ++ items') = stream tag items ++ stream tag items' :=
  filterMap_append

theorem stream_cons_self (tag : ℕ) (a : α) (items : List (ℕ × α)) :
    stream tag ((tag, a) :: items) = a :: stream tag items := by
  simp [stream]

theorem stream_cons_of_ne {tag tag' : ℕ} (h : tag' ≠ tag) (a : α) (items : List (ℕ × α)) :
    stream tag ((tag', a) :: items) = stream tag items := by
  simp [stream, h]

theorem mem_of_mem_stream {tag : ℕ} {a : α} {items : List (ℕ × α)} (h : a ∈ stream tag items) :
    (tag, a) ∈ items := by
  simp only [stream, mem_filterMap, Option.ite_none_right_eq_some, Option.some.injEq] at h
  obtain ⟨⟨tag', a'⟩, hmem, rfl, rfl⟩ := h
  exact hmem

/-- The one with the smaller key, the one already held on a tie. -/
def earlier (key : β → ℕ) : Option β → β → Option β
  | none, b => some b
  | some a, b => if key b < key a then some b else some a

/-- The scan finds an item that is strictly earlier than all others. -/
theorem foldl_earlier_of_least {key : β → ℕ} {least : β} :
    ∀ {candidates : List β} {held : Option β},
      (∀ b ∈ candidates, b ≠ least → key least < key b) →
      (∀ b, held = some b → b ≠ least → key least < key b) →
      (least ∈ candidates ∨ held = some least) →
      candidates.foldl (earlier key) held = some least
  | [], held, _, _, hfound => by simpa using hfound
  | b :: candidates, held, hcandidates, hheld, hfound => by
    have hb := hcandidates b (by simp)
    have hrest : ∀ c ∈ candidates, c ≠ least → key least < key c :=
      fun c hc => hcandidates c (mem_cons_of_mem _ hc)
    rw [foldl_cons]
    refine foldl_earlier_of_least hrest ?_ ?_
    · -- whatever is held after this candidate is the least one or later than it
      intro c hc hne
      rcases held with _ | a
      · obtain rfl := Option.some.inj hc
        exact hb hne
      · rw [earlier] at hc
        split at hc
        · obtain rfl := Option.some.inj hc
          exact hb hne
        · obtain rfl := Option.some.inj hc
          exact hheld a rfl hne
    · by_cases hmem : least ∈ candidates
      · exact .inl hmem
      · refine .inr ?_
        rcases held with _ | a
        · rcases hfound with hfound | hfound
          · have hhead : least = b := by simpa [hmem] using hfound
            rw [earlier, hhead]
          · cases hfound
        · rw [earlier]
          by_cases ha : a = least
          · -- the least item is held and stays
            have hstay : ¬ key b < key a := by
              intro hlt
              by_cases hbl : b = least
              · rw [hbl, ha] at hlt
                omega
              · have hlater := hb hbl
                rw [ha] at hlt
                omega
            rw [if_neg hstay, ha]
          · have hlater := hheld a rfl ha
            have hhead : least = b := by
              rcases hfound with hfound | hfound
              · simpa [hmem] using hfound
              · exact absurd (Option.some.inj hfound) ha
            rw [if_pos (hhead ▸ hlater), hhead]

/-- The heads of some streams, with their tags. -/
def heads (tags : List ℕ) (items : List (ℕ × α)) : List (ℕ × α) :=
  tags.filterMap fun tag => (stream tag items).head?.map fun a => (tag, a)

/-- **The earliest head is the first item.** -/
theorem earliest_heads {key : α → ℕ} {tags : List ℕ} {items : List (ℕ × α)}
    (hsorted : items.Pairwise fun a b => key a.2 < key b.2)
    (htags : ∀ item ∈ items, item.1 ∈ tags) :
    (heads tags items).foldl (earlier fun item => key item.2) none = items.head? := by
  rcases items with _ | ⟨⟨tag, a⟩, items⟩
  · have hnone : heads tags ([] : List (ℕ × α)) = [] := by simp [heads]
    rw [hnone]
    rfl
  · obtain ⟨hfirst, -⟩ := pairwise_cons.mp hsorted
    have htag : tag ∈ tags := htags (tag, a) (by simp)
    refine foldl_earlier_of_least ?_ (fun b hb => by cases hb) (.inl ?_)
    · -- any other head stands behind the first item
      intro item hitem hne
      obtain ⟨tag', -, hhead⟩ := mem_filterMap.mp hitem
      obtain ⟨b, hb, rfl⟩ := Option.map_eq_some_iff.mp hhead
      have hmem : (tag', b) ∈ (tag, a) :: items := mem_of_mem_stream (mem_of_mem_head? hb)
      rcases mem_cons.mp hmem with heq | hmem
      · exact absurd heq hne
      · exact hfirst (tag', b) hmem
    · refine mem_filterMap.mpr ⟨tag, htag, ?_⟩
      rw [stream_cons_self]
      rfl

/-- **The streams together have the items**, when the tags run up to a bound. -/
theorem perm_flatMap_stream {items : List (ℕ × α)} {bound : ℕ} {f : ℕ → α → β}
    (htags : ∀ item ∈ items, item.1 < bound) :
    ((range bound).flatMap fun tag => (stream tag items).map (f tag)).Perm
      (items.map fun item => f item.1 item.2) := by
  induction items with
  | nil =>
    have hempty : ((range bound).flatMap fun tag =>
        (stream tag ([] : List (ℕ × α))).map (f tag)) = [] :=
      flatMap_eq_nil_iff.mpr fun _ _ => rfl
    rw [hempty, map_nil]
  | cons item items ih =>
    obtain ⟨tag, a⟩ := item
    have hrest := ih fun item hitem => htags item (mem_cons_of_mem _ hitem)
    have htag : tag ∈ range bound := mem_range.mpr (htags (tag, a) mem_cons_self)
    -- one stream has one more item in front
    obtain ⟨before, after, hsplit⟩ := append_of_mem htag
    have hnodup : (before ++ tag :: after).Nodup := by
      rw [← hsplit]
      exact nodup_range
    have hothers : ∀ tags : List ℕ, tag ∉ tags →
        (tags.flatMap fun other => (stream other ((tag, a) :: items)).map (f other)) =
          tags.flatMap fun other => (stream other items).map (f other) := by
      intro tags hnot
      refine flatMap_congr ?_
      intro other hother
      rw [stream_cons_of_ne]
      rintro rfl
      exact hnot hother
    obtain ⟨-, hafter, hdisjoint⟩ := nodup_append.mp hnodup
    have hbefore : tag ∉ before := fun hmem => hdisjoint tag hmem tag mem_cons_self rfl
    rw [hsplit] at hrest ⊢
    rw [flatMap_append, flatMap_cons] at hrest ⊢
    rw [hothers before hbefore, hothers after (nodup_cons.mp hafter).1, stream_cons_self]
    rw [map_cons, map_cons, cons_append]
    exact perm_middle.trans (hrest.cons _)

end EarliestHead
