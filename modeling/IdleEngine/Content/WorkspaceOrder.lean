import IdleEngine.Content.Workspace
import IdleEngine.Lib.DependencyOrder

/-!
# What the compilation of a workspace comes to

`Compilable` says by induction which packs can be compiled: those that parse and require compilable
packs only. The sort puts every pack behind the packs it requires and leaves over packs that wait
for each other (`Topology`); so when a pack is compiled, what it requires was settled, and the
slugs that failed are those of the packs that are not compilable (`Settled`).

`compileWorkspacePacks_follows` puts this together: every pack has one result, compiled packs come
behind what they require, and exactly those packs fail from which a pack is reached that does not
parse, that requires a missing pack or that is on a cycle.
-/

namespace IdleEngine

open OrderedMap List Prod

/-! ### Sets by key -/

/-- The sets hold the values that are related to their keys, each once. -/
structure SetsHold (sets : OrderedMap String (List String)) (R : String → String → Prop) :
    Prop where
  mem : ∀ key value, value ∈ (sets.get? key).getD [] ↔ R key value
  nodup : ∀ key, ((sets.get? key).getD []).Nodup

theorem SetsHold.empty : SetsHold OrderedMap.empty fun _ _ => False :=
  ⟨fun key value => by simp [get?_empty], fun key => by simp [get?_empty]⟩

variable {sets : OrderedMap String (List String)} {R : String → String → Prop}

theorem SetsHold.congr {R' : String → String → Prop} (h : SetsHold sets R)
    (hiff : ∀ key value, R key value ↔ R' key value) : SetsHold sets R' :=
  ⟨fun key value => (h.mem key value).trans (hiff key value), h.nodup⟩

theorem SetsHold.add (h : SetsHold sets R) (key value : String) :
    SetsHold (addToSetOf sets key value) fun k v => R k v ∨ key = k ∧ value = v := by
  have hget : ∀ k, ((addToSetOf sets key value).get? k).getD [] =
      if key = k then
        (if value ∈ (sets.get? k).getD [] then (sets.get? k).getD []
          else (sets.get? k).getD [] ++ [value])
      else (sets.get? k).getD [] := by
    intro k
    rw [addToSetOf, get?_set]
    by_cases hk : key = k
    · subst hk
      simp
    · simp [hk]
  constructor
  · intro k v
    rw [hget, ← h.mem k v]
    by_cases hk : key = k
    · rw [if_pos hk]
      split
      · next hmem =>
        exact ⟨.inl, fun hv => hv.elim id fun hpair => hpair.2 ▸ hmem⟩
      · rw [mem_append, mem_singleton]
        simp [hk, eq_comm]
    · simp [hk]
  · intro k
    rw [hget]
    have hnodup := h.nodup k
    split
    · split
      · exact hnodup
      · next hnew =>
        rw [nodup_append]
        refine ⟨hnodup, nodup_singleton value, fun a ha b hb heq => hnew ?_⟩
        rw [← mem_singleton.mp hb, ← heq]
        exact ha
    · exact hnodup

theorem SetsHold.addAll (h : SetsHold sets R) (pairs : List (String × String)) :
    SetsHold (pairs.foldl (fun sets pair => addToSetOf sets pair.1 pair.2) sets)
      fun key value => R key value ∨ (key, value) ∈ pairs := by
  induction pairs generalizing sets R with
  | nil => exact h.congr fun key value => by simp
  | cons pair pairs ih =>
    refine (ih (h.add pair.1 pair.2)).congr fun key value => ?_
    rw [or_assoc, mem_cons, Prod.ext_iff]
    exact or_congr_right (or_congr_left (and_congr eq_comm eq_comm))

/-! ### The dependency map -/

section Dependencies

variable (documents : OrderedMap String ContentDocument)

/-- A slug of the workspace. -/
def InWorkspace (slug : String) : Prop := (documents.get? slug).isSome = true

instance : DecidablePred (InWorkspace documents) :=
  fun slug => inferInstanceAs (Decidable ((documents.get? slug).isSome = true))

/-- A pack of the workspace names another one among its requirements. -/
def Names (slug dependency : String) : Prop :=
  ∃ document, documents.get? slug = some document ∧
    dependency ∈ extractRequiredDependencies document

/-- The requirements of all packs, one after the other. -/
def requirements : List (String × String) :=
  documents.entries.flatMap fun entry =>
    (extractRequiredDependencies entry.2).map fun dependency => (entry.1, dependency)

variable {documents}

theorem mem_requirements {slug dependency : String} :
    (slug, dependency) ∈ requirements documents ↔ Names documents slug dependency := by
  simp only [requirements, mem_flatMap, mem_map, Prod.mk.injEq, Names]
  constructor
  · rintro ⟨⟨slug, document⟩, hentry, _, hnamed, rfl, rfl⟩
    exact ⟨document, get?_eq_some_iff.mpr hentry, hnamed⟩
  · rintro ⟨document, hget, hnamed⟩
    exact ⟨(slug, document), get?_eq_some_iff.mp hget, dependency, hnamed, rfl, rfl⟩

theorem foldl_add (pairs : List (String × String)) (start : DependencyMap) :
    pairs.foldl (fun dependencies pair => dependencies.add documents pair.1 pair.2) start =
      { requires :=
          ((pairs.filter fun pair => decide (InWorkspace documents pair.2)).map Prod.swap).foldl
            (fun sets pair => addToSetOf sets pair.1 pair.2) start.requires
        missing := (pairs.filter fun pair => decide (¬ InWorkspace documents pair.2)).foldl
          (fun sets pair => addToSetOf sets pair.1 pair.2) start.missing } := by
  induction pairs generalizing start with
  | nil => rfl
  | cons pair pairs ih =>
    rw [foldl_cons, ih, DependencyMap.add]
    by_cases hknown : InWorkspace documents pair.2
    · rw [if_pos (by exact hknown), filter_cons_of_pos (by simpa using hknown),
        filter_cons_of_neg (by simpa using hknown)]
      rfl
    · rw [if_neg (by exact hknown), filter_cons_of_neg (by simpa using hknown),
        filter_cons_of_pos (by simpa using hknown)]
      rfl

/-- **The dependency map**: who requires a known pack, and what a pack requires that is missing. -/
theorem buildDependencyMap_spec (documents : OrderedMap String ContentDocument) :
    SetsHold (buildDependencyMap documents).requires
        (fun dependency slug =>
          Names documents slug dependency ∧ InWorkspace documents dependency) ∧
      SetsHold (buildDependencyMap documents).missing fun slug dependency =>
        Names documents slug dependency ∧ ¬ InWorkspace documents dependency := by
  have hfold : buildDependencyMap documents =
      (requirements documents).foldl
        (fun dependencies pair => dependencies.add documents pair.1 pair.2)
        ⟨OrderedMap.empty, OrderedMap.empty⟩ := by
    rw [requirements, foldl_flatMap]
    simp only [foldl_map]
    rfl
  rw [hfold, foldl_add]
  refine ⟨(SetsHold.empty.addAll _).congr fun dependency slug => ?_,
    (SetsHold.empty.addAll _).congr fun slug dependency => ?_⟩
  · rw [false_or, mem_map]
    constructor
    · rintro ⟨⟨slug, dependency⟩, hpair, heq⟩
      obtain ⟨rfl, rfl⟩ := Prod.mk.inj heq
      obtain ⟨hpair, hknown⟩ := mem_filter.mp hpair
      exact ⟨mem_requirements.mp hpair, of_decide_eq_true hknown⟩
    · rintro ⟨hnamed, hknown⟩
      exact ⟨(slug, dependency),
        mem_filter.mpr ⟨mem_requirements.mpr hnamed, decide_eq_true hknown⟩, rfl⟩
  · rw [false_or, mem_filter, mem_requirements, decide_eq_true_iff]

end Dependencies

/-! ### The sort -/

/-- What the sort leaves: the packs in order come behind the packs they require, the others wait for
each other. -/
structure Topology (documents : OrderedMap String ContentDocument) (topo : TopologyResult) :
    Prop where
  perm : (topo.ordered ++ topo.cycleSlugs).Perm (documents.entries.map Prod.fst)
  earlier : ∀ before slug after, topo.ordered = before ++ slug :: after →
    ∀ dependency, Names documents slug dependency → InWorkspace documents dependency →
      dependency ∈ before
  waiting : ∀ slug ∈ topo.cycleSlugs, ∃ dependency ∈ topo.cycleSlugs,
    Names documents slug dependency

section TopologicalSort

variable {documents : OrderedMap String ContentDocument} {compareSlugs : String → String → ℤ}

theorem sortSlugs_perm (compareSlugs : String → String → ℤ) (slugs : List String) :
    (sortSlugs compareSlugs slugs).Perm slugs :=
  mergeSort_perm _ _

theorem keys_countDependants {inDegree : OrderedMap String ℤ} {dependants : List String}
    (hknown : ∀ slug ∈ dependants, slug ∈ inDegree.entries.map fst) :
    (countDependants inDegree dependants).entries.map fst = inDegree.entries.map fst := by
  induction dependants generalizing inDegree with
  | nil => rfl
  | cons slug dependants ih =>
    have hkeys := keys_set (hknown slug mem_cons_self)
      ((inDegree.get? slug).getD 0 + 1)
    refine (ih fun slug hslug => ?_).trans hkeys
    rw [hkeys]
    exact hknown slug (mem_cons_of_mem _ hslug)

theorem get?_countDependants (inDegree : OrderedMap String ℤ) {dependants : List String}
    (hnodup : dependants.Nodup) (w : String) :
    ((countDependants inDegree dependants).get? w).getD 0 =
      (inDegree.get? w).getD 0 + if w ∈ dependants then 1 else 0 := by
  induction dependants generalizing inDegree with
  | nil => simp [countDependants]
  | cons slug dependants ih =>
    obtain ⟨hnew, hrest⟩ := nodup_cons.mp hnodup
    rw [countDependants, foldl_cons, ← countDependants, ih _ hrest, get?_set]
    by_cases heq : slug = w
    · subst heq
      simp [hnew]
    · simp [heq, Ne.symm heq]

/-- **The in-degrees**: how many of the sets a pack is in. -/
theorem foldl_countDependants {entries : List (String × List String)}
    {inDegree : OrderedMap String ℤ}
    (hsets : ∀ entry ∈ entries, entry.2.Nodup ∧
      ∀ slug ∈ entry.2, slug ∈ inDegree.entries.map fst) :
    (entries.foldl (fun inDegree entry => countDependants inDegree entry.2)
        inDegree).entries.map fst = inDegree.entries.map fst ∧
      ∀ w, ((entries.foldl (fun inDegree entry => countDependants inDegree entry.2)
          inDegree).get? w).getD 0 =
        (inDegree.get? w).getD 0 + (entries.countP fun entry => decide (w ∈ entry.2) : ℤ) := by
  induction entries generalizing inDegree with
  | nil => exact ⟨rfl, fun w => by simp⟩
  | cons entry entries ih =>
    obtain ⟨hnodup, hknown⟩ := hsets entry mem_cons_self
    have hkeys := keys_countDependants hknown
    have hrest : ∀ e ∈ entries, e.2.Nodup ∧
        ∀ slug ∈ e.2, slug ∈ (countDependants inDegree entry.2).entries.map fst := by
      rw [hkeys]
      exact fun e he => hsets e (mem_cons_of_mem _ he)
    obtain ⟨hkeys', hcount⟩ := ih hrest
    refine ⟨hkeys'.trans hkeys, fun w => ?_⟩
    rw [foldl_cons, hcount w, get?_countDependants inDegree hnodup, countP_cons]
    by_cases hmem : w ∈ entry.2
    · simp [hmem]
      ring
    · simp [hmem]

/-- The packs that require a pack, as the sort follows them. -/
def dependants (documents : OrderedMap String ContentDocument) (slug : String) : List String :=
  ((buildDependencyMap documents).requires.get? slug).getD []

variable {slug : String}

theorem mem_dependants {dependency : String} :
    slug ∈ dependants documents dependency ↔
      Names documents slug dependency ∧ InWorkspace documents dependency :=
  (buildDependencyMap_spec documents).1.mem dependency slug

theorem known_iff :
    InWorkspace documents slug ↔ slug ∈ documents.entries.map fst :=
  mem_keys_iff.symm

theorem Names.known {dependency : String} (h : Names documents slug dependency) :
    slug ∈ documents.entries.map fst := by
  obtain ⟨document, hget, -⟩ := h
  rw [mem_keys_iff, hget]
  rfl

theorem countP_requires (w : String) :
    (buildDependencyMap documents).requires.entries.countP (fun entry => decide (w ∈ entry.2)) =
      Kahn.remaining (dependants documents) (documents.entries.map fst) [] w := by
  rw [Kahn.remaining, countP_eq_length_filter, countP_eq_length_filter,
    ← length_map fst]
  refine List.Perm.length_eq ((perm_ext_iff_of_nodup ?_ ?_).mpr fun v => ?_)
  · exact (buildDependencyMap documents).requires.nodup.sublist
      (filter_sublist.map fst)
  · exact documents.nodup.filter _
  · rw [mem_map, mem_filter]
    constructor
    · rintro ⟨⟨v, set⟩, hentry, rfl⟩
      obtain ⟨hentry, hmem⟩ := mem_filter.mp hentry
      have hset : dependants documents v = set := by
        rw [dependants, get?_eq_some_iff.mpr hentry]
        rfl
      have hw : w ∈ dependants documents v := hset ▸ of_decide_eq_true hmem
      exact ⟨known_iff.mp (mem_dependants.mp hw).2, by simpa using hw⟩
    · rintro ⟨-, hw⟩
      have hw : w ∈ dependants documents v := by simpa using hw
      rw [dependants] at hw
      rcases hget : (buildDependencyMap documents).requires.get? v with _ | set
      · rw [hget] at hw
        cases hw
      · rw [hget] at hw
        exact ⟨(v, set), mem_filter.mpr ⟨get?_eq_some_iff.mp hget,
          decide_eq_true hw⟩, rfl⟩

/-- The in-degrees of the sort. -/
def inDegrees (documents : OrderedMap String ContentDocument) : OrderedMap String ℤ :=
  (buildDependencyMap documents).requires.entries.foldl
    (fun inDegree entry => countDependants inDegree entry.2) (documents.mapValues fun _ => (0 : ℤ))

theorem inDegrees_spec (documents : OrderedMap String ContentDocument) :
    (inDegrees documents).entries.map fst = documents.entries.map fst ∧
      ∀ w ∈ documents.entries.map fst, (inDegrees documents).get? w =
        some (Kahn.remaining (dependants documents) (documents.entries.map fst) [] w : ℤ) := by
  obtain ⟨hrequires, -⟩ := buildDependencyMap_spec documents
  have hzero : (documents.mapValues fun _ => (0 : ℤ)).entries.map fst =
      documents.entries.map fst := by
    rw [OrderedMap.mapValues, List.map_map]
    rfl
  have hsets : ∀ entry ∈ (buildDependencyMap documents).requires.entries, entry.2.Nodup ∧
      ∀ slug ∈ entry.2, slug ∈ (documents.mapValues fun _ => (0 : ℤ)).entries.map fst := by
    intro entry hentry
    have hset : ((buildDependencyMap documents).requires.get? entry.1).getD [] = entry.2 := by
      rw [get?_eq_some_iff.mpr hentry]
      rfl
    refine ⟨hset ▸ hrequires.nodup entry.1, fun slug hslug => ?_⟩
    rw [hzero]
    exact ((hrequires.mem entry.1 slug).mp (hset.symm ▸ hslug)).1.known
  obtain ⟨hkeys, hcount⟩ := foldl_countDependants hsets
  rw [hzero] at hkeys
  refine ⟨hkeys, fun w hw => ?_⟩
  have hsome : ((inDegrees documents).get? w).isSome = true := by
    rw [← mem_keys_iff, inDegrees, hkeys]
    exact hw
  obtain ⟨degree, hdegree⟩ := Option.isSome_iff_exists.mp hsome
  have hvalue := hcount w
  rw [← inDegrees, hdegree, countP_requires, get?_mapValues] at hvalue
  rw [hdegree]
  rw [← known_iff] at hw
  obtain ⟨document, hget⟩ := Option.isSome_iff_exists.mp hw
  rw [hget] at hvalue
  simpa using hvalue

/-- The queue at the start of the sort. -/
def zeroInDegrees (documents : OrderedMap String ContentDocument) : List String :=
  ((inDegrees documents).entries.filter fun entry => decide (entry.2 = 0)).map Prod.fst

theorem mem_zeroInDegrees {w : String} :
    w ∈ zeroInDegrees documents ↔ (inDegrees documents).get? w = some 0 := by
  rw [zeroInDegrees, mem_map, get?_eq_some_iff]
  constructor
  · rintro ⟨⟨w, degree⟩, hentry, rfl⟩
    obtain ⟨hentry, hzero⟩ := mem_filter.mp hentry
    obtain rfl := of_decide_eq_true hzero
    exact hentry
  · exact fun hentry => ⟨(w, 0), mem_filter.mpr ⟨hentry, decide_eq_true rfl⟩, rfl⟩

/-- The variables of the sort before its loop. -/
def sortStart (compareSlugs : String → String → ℤ) (documents : OrderedMap String ContentDocument) :
    Kahn.State String :=
  { zeroInDegree := sortSlugs compareSlugs (zeroInDegrees documents)
    ordered := []
    inDegree := inDegrees documents }

theorem sorting_start :
    Kahn.Sorting (dependants documents) (documents.entries.map fst) []
      (sortStart compareSlugs documents) := by
  obtain ⟨hkeys, hdegrees⟩ := inDegrees_spec documents
  have hperm := sortSlugs_perm compareSlugs (zeroInDegrees documents)
  refine ⟨fun v hv => ?_, ?_, fun w hw => ?_, fun w _ => ?_, fun before v after hsplit => ?_⟩
  · have hzero := mem_zeroInDegrees.mp (hperm.mem_iff.mp hv)
    rw [← hkeys, mem_keys_iff, hzero]
    rfl
  · change (sortSlugs compareSlugs (zeroInDegrees documents)).Nodup
    rw [hperm.nodup_iff]
    exact (inDegrees documents).nodup.sublist (filter_sublist.map fst)
  · rw [if_neg not_mem_nil, add_zero]
    exact hdegrees w hw
  · exact hperm.mem_iff.trans mem_zeroInDegrees
  · exact absurd hsplit (append_ne_nil_of_right_ne_nil _ (cons_ne_nil _ _)).symm

/-- **The sort.** -/
theorem topologicallySortDocuments_spec :
    Topology documents
      (topologicallySortDocuments compareSlugs documents (buildDependencyMap documents)) := by
  obtain ⟨hrequires, -⟩ := buildDependencyMap_spec documents
  -- the sets that the sort follows are those of the dependency map
  have htargets : (fun slug => (((buildDependencyMap documents).requires.entries.foldl
      (fun adjacency entry => adjacency.set entry.1 entry.2)
      (documents.mapValues fun _ => ([] : List String))).get? slug).getD []) =
      dependants documents := by
    funext slug
    rw [get?_foldl_set (buildDependencyMap documents).requires.nodup,
      get?_mapValues, dependants]
    change ((OrderedMap.get? _ slug).or _).getD [] = _
    rcases (buildDependencyMap documents).requires.get? slug with _ | set
    · rcases documents.get? slug with _ | document
      · rfl
      · rfl
    · rfl
  have hclosed : ∀ v ∈ documents.entries.map fst, (dependants documents v).Nodup ∧
      ∀ w ∈ dependants documents v, w ∈ documents.entries.map fst := fun v _ =>
    ⟨hrequires.nodup v, fun w hw => (mem_dependants.mp hw).1.known⟩
  obtain ⟨hsorted, hempty⟩ := Kahn.loop_spec (sortSlugs_perm compareSlugs) documents.nodup hclosed
    documents.entries.length sorting_start (by simp)
  have hkeys := (Kahn.keys_loop (sortSlugs compareSlugs) (dependants documents)
    documents.entries.length (sortStart compareSlugs documents)).trans (inDegrees_spec documents).1
  unfold topologicallySortDocuments
  dsimp only
  rw [htargets, ← inDegrees, ← zeroInDegrees, ← sortStart]
  generalize Kahn.loop (sortSlugs compareSlugs) (dependants documents) documents.entries.length
    (sortStart compareSlugs documents) = last at hsorted hempty hkeys ⊢
  have hordered : last.ordered ++ last.zeroInDegree = last.ordered := by
    rw [hempty, append_nil]
  have hdegree : ∀ w ∈ documents.entries.map fst, last.inDegree.get? w =
      some (Kahn.remaining (dependants documents) (documents.entries.map fst) last.ordered w :
        ℤ) := by
    intro w hw
    rw [hsorted.degree w hw, if_neg not_mem_nil, add_zero]
  have hcycle : ∀ w, w ∈ (last.inDegree.entries.filter fun entry => decide (0 < entry.2)).map
      fst ↔ ∃ degree, last.inDegree.get? w = some degree ∧ 0 < degree := by
    intro w
    rw [mem_map]
    constructor
    · rintro ⟨⟨w, degree⟩, hentry, rfl⟩
      obtain ⟨hentry, hpos⟩ := mem_filter.mp hentry
      exact ⟨degree, get?_eq_some_iff.mpr hentry, of_decide_eq_true hpos⟩
    · rintro ⟨degree, hget, hpos⟩
      exact ⟨(w, degree), mem_filter.mpr ⟨get?_eq_some_iff.mp hget,
        decide_eq_true hpos⟩, rfl⟩
  have hready : ∀ w ∈ documents.entries.map fst,
      w ∈ last.ordered ↔ last.inDegree.get? w = some 0 := by
    intro w hw
    rw [← hsorted.ready w hw, hordered]
  have hknown : ∀ v ∈ last.ordered, v ∈ documents.entries.map fst := fun v hv =>
    hsorted.known v (hordered.symm ▸ hv)
  refine ⟨(perm_ext_iff_of_nodup ?_ documents.nodup).mpr fun w => ?_, ?_, ?_⟩
  · rw [nodup_append]
    refine ⟨hordered ▸ hsorted.nodup, last.inDegree.nodup.sublist
      (filter_sublist.map fst), fun v hv w hw heq => ?_⟩
    obtain ⟨degree, hget, hpos⟩ := (hcycle w).mp hw
    rw [← heq, (hready v (hknown v hv)).mp hv] at hget
    exact absurd hpos (by simp [← Option.some.inj hget])
  · rw [mem_append]
    constructor
    · rintro (hw | hw)
      · exact hknown w hw
      · obtain ⟨degree, hget, -⟩ := (hcycle w).mp hw
        rw [← hkeys, mem_keys_iff, hget]
        rfl
    · intro hw
      rcases Nat.eq_zero_or_pos (Kahn.remaining (dependants documents)
        (documents.entries.map fst) last.ordered w) with hzero | hpos
      · left
        rw [hready w hw, hdegree w hw, hzero]
        rfl
      · exact .inr ((hcycle w).mpr ⟨_, hdegree w hw, by exact_mod_cast hpos⟩)
  · intro before slug after hsplit dependency hnamed hdependency
    exact hsorted.earlier before slug after hsplit dependency (known_iff.mp hdependency)
      (mem_dependants.mpr ⟨hnamed, hdependency⟩)
  · intro slug hslug
    obtain ⟨degree, hget, hpos⟩ := (hcycle slug).mp hslug
    have hmem : slug ∈ documents.entries.map fst := by
      rw [← hkeys, mem_keys_iff, hget]
      rfl
    rw [hdegree slug hmem] at hget
    obtain rfl := Option.some.inj hget
    -- a source that the pack still waits for
    obtain ⟨dependency, hdependency, hwaits⟩ := countP_pos_iff.mp (Nat.cast_pos.mp hpos)
    obtain ⟨htarget, hleft⟩ := of_decide_eq_true hwaits
    have hpositive : 0 < Kahn.remaining (dependants documents) (documents.entries.map fst)
        last.ordered dependency := by
      refine Nat.pos_of_ne_zero fun hzero => hleft ?_
      rw [hready dependency hdependency, hdegree dependency hdependency, hzero]
      rfl
    exact ⟨dependency, (hcycle dependency).mpr ⟨_, hdegree dependency hdependency,
      by exact_mod_cast hpositive⟩, (mem_dependants.mp htarget).1⟩

end TopologicalSort

/-! ### The compilation -/

section Compile

variable {Pack : Type} (parseContentPack : ContentDocument → Except String Pack)
  (documents : OrderedMap String ContentDocument)

/-- A pack can be compiled: it parses, and so do all packs that it requires, directly or not. -/
inductive Compilable : String → Prop
  | intro {slug : String} {document : ContentDocument} {pack : Pack}
      (known : documents.get? slug = some document) (parses : parseContentPack document = .ok pack)
      (requires : ∀ dependency ∈ extractRequiredDependencies document, Compilable dependency) :
      Compilable slug

/-- The results for the packs that were settled, and the slugs of those that failed. -/
structure Compiled (settled : List String) (progress : CompileProgress Pack) : Prop where
  slugs : progress.results.map (·.document.packSlug) = settled
  results : ∀ result ∈ progress.results,
    documents.get? result.document.packSlug = some result.document ∧
      (result.isCompiled = true ↔ Compilable parseContentPack documents result.document.packSlug)
  failed : ∀ slug, slug ∈ progress.failed ↔
    slug ∈ settled ∧ ¬ Compilable parseContentPack documents slug

variable {parseContentPack documents}

variable {slug : String}

theorem Compilable.names {dependency : String} (h : Compilable parseContentPack documents slug)
    (hnames : Names documents slug dependency) :
    Compilable parseContentPack documents dependency := by
  obtain @⟨_, document, pack, hknown, -, hrequires⟩ := h
  obtain ⟨document', hget, hnamed⟩ := hnames
  obtain rfl := Option.some.inj (hknown.symm.trans hget)
  exact hrequires dependency hnamed

theorem Compilable.known (h : Compilable parseContentPack documents slug) :
    InWorkspace documents slug := by
  obtain @⟨_, document, pack, hknown, -, -⟩ := h
  exact Option.isSome_iff_exists.mpr ⟨document, hknown⟩

theorem Compilable.not_waiting {topo : TopologyResult} (htopo : Topology documents topo)
    (h : Compilable parseContentPack documents slug) : slug ∉ topo.cycleSlugs := by
  induction h with
  | @intro slug document pack hknown _ _ ih =>
    intro hwaiting
    obtain ⟨dependency, hdependency, document', hget, hnamed⟩ := htopo.waiting slug hwaiting
    obtain rfl := Option.some.inj (hknown.symm.trans hget)
    exact ih dependency hnamed hdependency

/-- What a pack whose requirements are settled comes to. -/
theorem getDependencyFailureMessage_eq_none_iff {settled : List String}
    {progress : CompileProgress Pack} (h : Compiled parseContentPack documents settled progress)
    {document : ContentDocument} (hget : documents.get? slug = some document)
    (hsettled : ∀ dependency, Names documents slug dependency → InWorkspace documents dependency →
      dependency ∈ settled) :
    getDependencyFailureMessage slug document (buildDependencyMap documents) progress.failed =
        none ↔
      ∀ dependency ∈ extractRequiredDependencies document,
        Compilable parseContentPack documents dependency := by
  have hmissing : ((buildDependencyMap documents).missing.get? slug).getD [] ≠ [] ↔
      ∃ dependency ∈ extractRequiredDependencies document, ¬ InWorkspace documents dependency := by
    constructor
    · intro hsome
      obtain ⟨dependency, hdependency⟩ := exists_mem_of_ne_nil _ hsome
      obtain ⟨⟨document', hget', hnamed⟩, hunknown⟩ :=
        ((buildDependencyMap_spec documents).2.mem slug dependency).mp hdependency
      obtain rfl := Option.some.inj (hget.symm.trans hget')
      exact ⟨dependency, hnamed, hunknown⟩
    · rintro ⟨dependency, hnamed, hunknown⟩
      exact ne_nil_of_mem (((buildDependencyMap_spec documents).2.mem slug dependency).mpr
        ⟨⟨document, hget, hnamed⟩, hunknown⟩)
  unfold getDependencyFailureMessage
  dsimp only
  split
  · next hsome =>
    refine iff_of_false (by simp) fun hall => ?_
    obtain ⟨dependency, hnamed, hunknown⟩ := hmissing.mp hsome
    exact hunknown (hall dependency hnamed).known
  · next hnone =>
    have hknown : ∀ dependency ∈ extractRequiredDependencies document,
        InWorkspace documents dependency := fun dependency hnamed => by
      by_contra hunknown
      exact hnone (hmissing.mpr ⟨dependency, hnamed, hunknown⟩)
    split
    · next hsome =>
      refine iff_of_false (by simp) fun hall => ?_
      obtain ⟨dependency, hdependency⟩ := exists_mem_of_ne_nil _ hsome
      obtain ⟨hnamed, hfailed⟩ := mem_filter.mp hdependency
      exact ((h.failed dependency).mp (of_decide_eq_true hfailed)).2 (hall dependency hnamed)
    · next hnone =>
      refine iff_of_true rfl fun dependency hnamed => ?_
      by_contra hfailed
      refine hnone (ne_nil_of_mem (mem_filter.mpr ⟨hnamed, decide_eq_true ?_⟩))
      exact (h.failed dependency).mpr
        ⟨hsettled dependency ⟨document, hget, hnamed⟩ (hknown dependency hnamed), hfailed⟩

/-- **One pack**, whose requirements are settled. -/
theorem Compiled.next
    (hslugs : ∀ slug document, documents.get? slug = some document → document.packSlug = slug)
    {settled : List String} {progress : CompileProgress Pack}
    (h : Compiled parseContentPack documents settled progress) (hknown : InWorkspace documents slug)
    (hsettled : ∀ dependency, Names documents slug dependency → InWorkspace documents dependency →
      dependency ∈ settled) :
    Compiled parseContentPack documents (settled ++ [slug])
      (compileNext parseContentPack documents (buildDependencyMap documents) progress slug) := by
  obtain ⟨document, hget⟩ := Option.isSome_iff_exists.mp hknown
  have hslug := hslugs slug document hget
  have hcompilable : Compilable parseContentPack documents slug ↔
      (∃ pack, parseContentPack document = .ok pack) ∧
        ∀ dependency ∈ extractRequiredDependencies document,
          Compilable parseContentPack documents dependency := by
    constructor
    · rintro @⟨_, document', pack, hknown, hparses, hrequires⟩
      obtain rfl := Option.some.inj (hknown.symm.trans hget)
      exact ⟨⟨pack, hparses⟩, hrequires⟩
    · rintro ⟨⟨pack, hparses⟩, hrequires⟩
      exact .intro hget hparses hrequires
  -- the result and the slugs that failed, for either outcome
  have hwith : ∀ (result : PackArtifactResult Pack) (failed : List String),
      result.document = document →
      (result.isCompiled = true ↔ Compilable parseContentPack documents slug) →
      failed = (if result.isCompiled then progress.failed else progress.failed ++ [slug]) →
      Compiled parseContentPack documents (settled ++ [slug])
        { results := progress.results ++ [result], failed } := by
    rintro result failed hdocument hiff rfl
    refine ⟨?_, fun r hr => ?_, fun s => ?_⟩
    · rw [map_append, h.slugs, map_singleton, hdocument, hslug]
    · rcases mem_append.mp hr with hr | hr
      · exact h.results r hr
      · obtain rfl := mem_singleton.mp hr
        rw [hdocument, hslug]
        exact ⟨hget, hiff⟩
    · split
      · next hcompiled =>
        rw [h.failed s, mem_append, mem_singleton]
        constructor
        · exact fun ⟨hs, hnot⟩ => ⟨.inl hs, hnot⟩
        · rintro ⟨hs | rfl, hnot⟩
          · exact ⟨hs, hnot⟩
          · exact absurd (hiff.mp hcompiled) hnot
      · next hfailed =>
        rw [mem_append, mem_singleton, h.failed s, mem_append, mem_singleton]
        constructor
        · rintro (⟨hs, hnot⟩ | rfl)
          · exact ⟨.inl hs, hnot⟩
          · exact ⟨.inr rfl, fun hcan => hfailed (hiff.mpr hcan)⟩
        · rintro ⟨hs | rfl, hnot⟩
          · exact .inl ⟨hs, hnot⟩
          · exact .inr rfl
  have hmessage := getDependencyFailureMessage_eq_none_iff h hget hsettled
  unfold compileNext
  rw [hget]
  dsimp only
  split
  · next message hsome =>
    refine hwith _ _ rfl (iff_of_false Bool.false_ne_true fun hcan => ?_) rfl
    rw [hmessage.mpr (hcompilable.mp hcan).2] at hsome
    cases hsome
  · next hnone =>
    have hrequires := hmessage.mp hnone
    rcases hparse : parseContentPack document with error | pack
    · have hresult : compileContentPack parseContentPack document = .failed document error := by
        rw [compileContentPack, hparse]
      rw [hresult]
      refine hwith _ _ rfl (iff_of_false Bool.false_ne_true fun hcan => ?_) rfl
      obtain ⟨pack, hparses⟩ := (hcompilable.mp hcan).1
      rw [hparse] at hparses
      cases hparses
    · have hresult : compileContentPack parseContentPack document = .compiled document pack := by
        rw [compileContentPack, hparse]
      rw [hresult]
      exact hwith _ _ rfl (iff_of_true rfl (hcompilable.mpr ⟨⟨pack, hparse⟩, hrequires⟩)) rfl

/-- **All packs in order.** -/
theorem compileTopologicallySortedPacks_spec {topo : TopologyResult}
    (htopo : Topology documents topo)
    (hslugs : ∀ slug document, documents.get? slug = some document → document.packSlug = slug) :
    Compiled parseContentPack documents topo.ordered
      (compileTopologicallySortedPacks parseContentPack topo.ordered documents
        (buildDependencyMap documents)) := by
  have hprefix : ∀ settled rest, topo.ordered = settled ++ rest →
      Compiled parseContentPack documents settled
        (settled.foldl (compileNext parseContentPack documents (buildDependencyMap documents))
          ⟨[], []⟩) := by
    intro settled
    induction settled using reverseRecOn with
    | nil => exact fun _ _ => ⟨rfl, by simp, by simp⟩
    | append_singleton settled slug ih =>
      intro rest hsplit
      rw [append_assoc, singleton_append] at hsplit
      rw [foldl_append, foldl_cons, foldl_nil]
      have hmem : slug ∈ topo.ordered ++ topo.cycleSlugs := by
        rw [hsplit]
        simp
      exact (ih _ hsplit).next hslugs (known_iff.mpr (htopo.perm.mem_iff.mp hmem))
        (htopo.earlier settled slug rest hsplit)
  exact hprefix topo.ordered [] (append_nil _).symm

end Compile

/-! ### The workspace -/

section Workspace

variable {Pack : Type} {parseContentPack : ContentDocument → Except String Pack}
  {documents : List ContentDocument}

/-- One pack requires another pack of the workspace. -/
def Requires (documents : List ContentDocument) (document required : ContentDocument) : Prop :=
  required ∈ documents ∧ required.packSlug ∈ extractRequiredDependencies document

/-- A pack does not parse, requires a pack that is missing, or is on a cycle. -/
def Blocked (parseContentPack : ContentDocument → Except String Pack)
    (documents : List ContentDocument) (document : ContentDocument) : Prop :=
  (∀ pack, parseContentPack document ≠ .ok pack) ∨
    (∃ slug ∈ extractRequiredDependencies document,
      ∀ other ∈ documents, other.packSlug ≠ slug) ∨
    Relation.TransGen (Requires documents) document document

/-- What the results of a workspace have to do with the requirements of its packs. -/
structure FollowsDependencies (parseContentPack : ContentDocument → Except String Pack)
    (documents : List ContentDocument) (results : List (PackArtifactResult Pack)) : Prop where
  once : (results.map (·.document)).Perm documents
  compiled_iff : ∀ result ∈ results, result.isCompiled = true ↔
    (∃ pack, parseContentPack result.document = .ok pack) ∧
      ∀ slug ∈ extractRequiredDependencies result.document,
        ∃ required ∈ results, required.document.packSlug = slug ∧ required.isCompiled = true
  failed_iff : ∀ result ∈ results, result.isCompiled = false ↔
    ∃ document, Relation.ReflTransGen (Requires documents) result.document document ∧
      Blocked parseContentPack documents document
  behind : ∀ before result after, results = before ++ result :: after →
    result.isCompiled = true → ∀ slug ∈ extractRequiredDependencies result.document,
      ∃ required ∈ before, required.document.packSlug = slug ∧ required.isCompiled = true

/-- The documents by slug. -/
def bySlug (documents : List ContentDocument) : OrderedMap String ContentDocument :=
  documents.foldl (fun bySlug entry => bySlug.set entry.packSlug entry) OrderedMap.empty

theorem entries_bySlug (hslugs : (documents.map (·.packSlug)).Nodup) :
    (bySlug documents).entries = documents.map fun document => (document.packSlug, document) := by
  induction documents using reverseRecOn with
  | nil => rfl
  | append_singleton documents document ih =>
    rw [map_append, nodup_append] at hslugs
    have hbefore := ih hslugs.1
    have hnew : document.packSlug ∉ (bySlug documents).entries.map fst := by
      rw [hbefore, List.map_map]
      intro hmem
      exact hslugs.2.2 _ hmem _ (mem_singleton_self _) rfl
    rw [bySlug, foldl_append, foldl_cons, foldl_nil, ← bySlug, map_append,
      map_singleton, ← hbefore]
    exact setEntries_of_notMem hnew document

variable {document : ContentDocument}

section

variable (hslugs : (documents.map (·.packSlug)).Nodup)
include hslugs

theorem get?_bySlug {slug : String} : (bySlug documents).get? slug = some document ↔
      document ∈ documents ∧ document.packSlug = slug := by
  rw [get?_eq_some_iff, entries_bySlug hslugs, mem_map]
  constructor
  · rintro ⟨document, hmem, heq⟩
    obtain ⟨rfl, rfl⟩ := mk.inj heq
    exact ⟨hmem, rfl⟩
  · rintro ⟨hmem, rfl⟩
    exact ⟨document, hmem, rfl⟩

theorem Compilable.not_cycle {slug : String}
    (h : Compilable parseContentPack (bySlug documents) slug)
    (hget : (bySlug documents).get? slug = some document) :
    ¬ Relation.TransGen (Requires documents) document document := by
  induction h generalizing document with
  | @intro slug document' pack hknown _ _ ih =>
    intro hcycle
    obtain rfl := Option.some.inj (hknown.symm.trans hget)
    -- the cycle also passes through the first pack that is required
    obtain ⟨required, ⟨hmem, hnamed⟩, hback⟩ := Relation.TransGen.head'_iff.mp hcycle
    exact ih required.packSlug hnamed ((get?_bySlug hslugs).mpr ⟨hmem, rfl⟩)
      (.tail' hback ⟨hmem, hnamed⟩)

/-- **A pack can be compiled exactly when no blocked pack is reached from it.** -/
theorem compilable_iff (hdocument : document ∈ documents) :
    Compilable parseContentPack (bySlug documents) document.packSlug ↔
      ∀ other, Relation.ReflTransGen (Requires documents) document other →
        ¬ Blocked parseContentPack documents other := by
  constructor
  · intro hcompilable other hreach
    have hother : other ∈ documents ∧
        Compilable parseContentPack (bySlug documents) other.packSlug := by
      induction hreach with
      | refl => exact ⟨hdocument, hcompilable⟩
      | tail _ hrequires ih =>
        exact ⟨hrequires.1, ih.2.names ⟨_, (get?_bySlug hslugs).mpr ⟨ih.1, rfl⟩, hrequires.2⟩⟩
    have hget := (get?_bySlug hslugs).mpr ⟨hother.1, rfl⟩
    rintro (hparse | ⟨slug, hnamed, hmissing⟩ | hcycle)
    · obtain @⟨_, other', pack, hknown, hparses, -⟩ := hother.2
      obtain rfl := Option.some.inj (hknown.symm.trans hget)
      exact hparse pack hparses
    · have hknown := (hother.2.names ⟨other, hget, hnamed⟩).known
      obtain ⟨required, hrequired⟩ := Option.isSome_iff_exists.mp hknown
      obtain ⟨hmem, hslug⟩ := (get?_bySlug hslugs).mp hrequired
      exact hmissing required hmem hslug
    · exact hother.2.not_cycle hslugs hget hcycle
  · intro hfree
    -- below the pack there is no cycle, so that a pack ranks above what it requires
    let Below (a b : ContentDocument) : Prop :=
      Requires documents a b ∧ Relation.ReflTransGen (Requires documents) document a
    have hacyclic : ∀ a, ¬ Relation.TransGen Below a a := by
      intro a hcycle
      obtain ⟨b, hbelow, -⟩ := Relation.TransGen.head'_iff.mp hcycle
      exact hfree a hbelow.2 (.inr (.inr (hcycle.lift id fun _ _ h => h.1)))
    have hall : ∀ (n : ℕ) (other : ContentDocument), other ∈ documents →
        Relation.ReflTransGen (Requires documents) document other →
        DependencyOrder.rank Below documents other = n →
        Compilable parseContentPack (bySlug documents) other.packSlug := by
      intro n
      induction n using Nat.strongRecOn with
      | ind n ih =>
        rintro other hmem hreach rfl
        have hnot := hfree other hreach
        obtain ⟨pack, hpack⟩ : ∃ pack, parseContentPack other = .ok pack := by
          by_contra hnone
          exact hnot (.inl fun pack hpack => hnone ⟨pack, hpack⟩)
        refine .intro ((get?_bySlug hslugs).mpr ⟨hmem, rfl⟩) hpack fun slug hnamed => ?_
        obtain ⟨required, hrequired, rfl⟩ : ∃ required ∈ documents, required.packSlug = slug := by
          by_contra hnone
          exact hnot (.inr (.inl ⟨slug, hnamed, fun d hd hslug => hnone ⟨d, hd, hslug⟩⟩))
        have hrequires : Requires documents other required := ⟨hrequired, hnamed⟩
        exact ih _ (DependencyOrder.rank_lt hacyclic hrequired ⟨hrequires, hreach⟩) required
          hrequired (hreach.tail hrequires) rfl
    exact hall _ document hdocument .refl rfl

end

/-- The results of a workspace: those of the packs in order, then the packs that are left. -/
theorem compileWorkspacePacks_eq (parseContentPack : ContentDocument → Except String Pack)
    (compareSlugs : String → String → ℤ) (hslugs : (documents.map (·.packSlug)).Nodup) :
    ∃ (topo : TopologyResult) (progress : CompileProgress Pack)
      (failures : List (PackArtifactResult Pack)),
      compileWorkspacePacks parseContentPack compareSlugs documents =
        progress.results ++ failures ∧
      Topology (bySlug documents) topo ∧
      Compiled parseContentPack (bySlug documents) topo.ordered progress ∧
      (failures.map (·.document.packSlug)).Perm topo.cycleSlugs ∧
      ∀ result ∈ failures, result.isCompiled = false ∧
        (bySlug documents).get? result.document.packSlug = some result.document := by
  have hslug : ∀ slug document, (bySlug documents).get? slug = some document →
      document.packSlug = slug := fun slug document hget => ((get?_bySlug hslugs).mp hget).2
  let topo := topologicallySortDocuments compareSlugs (bySlug documents)
    (buildDependencyMap (bySlug documents))
  have htopo : Topology (bySlug documents) topo := topologicallySortDocuments_spec
  let progress := compileTopologicallySortedPacks parseContentPack topo.ordered (bySlug documents)
    (buildDependencyMap (bySlug documents))
  have hcompiled : Compiled parseContentPack (bySlug documents) topo.ordered progress :=
    compileTopologicallySortedPacks_spec htopo hslug
  let remaining := sortSlugs compareSlugs
    (topo.cycleSlugs.filter fun slug => slug ∉ progress.failed)
  -- no pack that is left has failed before
  have hremaining : remaining.Perm topo.cycleSlugs := by
    refine (sortSlugs_perm compareSlugs _).trans (.of_eq (filter_eq_self.mpr ?_))
    refine fun slug hslug => decide_eq_true fun hfailed => ?_
    have hnodup := htopo.perm.nodup_iff.mpr (bySlug documents).nodup
    exact (nodup_append.mp hnodup).2.2 slug ((hcompiled.failed slug).mp hfailed).1 slug hslug
      rfl
  let failures := remaining.filterMap fun slug => ((bySlug documents).get? slug).map fun document =>
    (PackArtifactResult.failed document (createCycleErrorMessage remaining) :
      PackArtifactResult Pack)
  refine ⟨topo, progress, failures, ?_, htopo, hcompiled, ?_, ?_⟩
  · change (if remaining ≠ [] then _ else progress.results) = _
    by_cases hnone : remaining = []
    · have hfailures : failures = [] := by
        change filterMap _ remaining = []
        rw [hnone, filterMap_nil]
      rw [if_neg (not_not.mpr hnone), hfailures, append_nil]
    · rw [if_pos hnone]
      rfl
  · refine .trans (.of_eq ?_) hremaining
    rw [map_filterMap]
    have hknown : ∀ slug ∈ remaining, ((((bySlug documents).get? slug).map fun document =>
        (PackArtifactResult.failed document (createCycleErrorMessage remaining) :
          PackArtifactResult Pack)).map (·.document.packSlug)) = some slug := by
      intro slug hmem
      have hknown : InWorkspace (bySlug documents) slug := known_iff.mpr (htopo.perm.mem_iff.mp
        (mem_append_right _ (hremaining.mem_iff.mp hmem)))
      obtain ⟨document, hget⟩ := Option.isSome_iff_exists.mp hknown
      rw [hget]
      exact congrArg some (hslug slug document hget)
    rw [filterMap_congr hknown, filterMap_some]
  · intro result hresult
    obtain ⟨slug, -, hfailure⟩ := mem_filterMap.mp hresult
    obtain ⟨document, hget, rfl⟩ := Option.map_eq_some_iff.mp hfailure
    refine ⟨rfl, ?_⟩
    change (bySlug documents).get? document.packSlug = some document
    rw [hslug slug document hget]
    exact hget

/-- **The compilation follows the requirements**, whatever order the slugs are sorted in and
whichever documents parse. -/
theorem compileWorkspacePacks_follows (parseContentPack : ContentDocument → Except String Pack)
    (compareSlugs : String → String → ℤ) {documents : List ContentDocument}
    (hslugs : (documents.map (·.packSlug)).Nodup) :
    FollowsDependencies parseContentPack documents
      (compileWorkspacePacks parseContentPack compareSlugs documents) := by
  obtain ⟨topo, progress, failures, hresults, htopo, hcompiled, hfailures, hfailed⟩ :=
    compileWorkspacePacks_eq parseContentPack compareSlugs hslugs
  rw [hresults]
  -- one result for each slug, with its document
  have hperm : ((progress.results ++ failures).map (·.document.packSlug)).Perm
      (documents.map (·.packSlug)) := by
    rw [List.map_append, hcompiled.slugs]
    refine (hfailures.append_left _).trans (htopo.perm.trans (List.Perm.of_eq ?_))
    rw [entries_bySlug hslugs, List.map_map]
    rfl
  have hget : ∀ result ∈ progress.results ++ failures,
      (bySlug documents).get? result.document.packSlug = some result.document := by
    intro result hresult
    rcases List.mem_append.mp hresult with hresult | hresult
    · exact (hcompiled.results result hresult).1
    · exact (hfailed result hresult).2
  have hmem : ∀ result ∈ progress.results ++ failures, result.document ∈ documents :=
    fun result hresult => ((get?_bySlug hslugs).mp (hget result hresult)).1
  have hiff : ∀ result ∈ progress.results ++ failures, result.isCompiled = true ↔
      Compilable parseContentPack (bySlug documents) result.document.packSlug := by
    intro result hresult
    rcases List.mem_append.mp hresult with hresult | hresult
    · exact (hcompiled.results result hresult).2
    · refine iff_of_false (by simp [(hfailed result hresult).1]) fun hcan => ?_
      refine hcan.not_waiting htopo (hfailures.mem_iff.mp ?_)
      exact List.mem_map.mpr ⟨result, hresult, rfl⟩
  -- the result of a slug
  have hfind : ∀ slug, InWorkspace (bySlug documents) slug →
      ∃ result ∈ progress.results ++ failures, result.document.packSlug = slug := by
    intro slug hknown
    have hslug : slug ∈ documents.map (·.packSlug) := by
      obtain ⟨document, hdocument⟩ := Option.isSome_iff_exists.mp hknown
      obtain ⟨hmem, rfl⟩ := (get?_bySlug hslugs).mp hdocument
      exact List.mem_map_of_mem hmem
    obtain ⟨result, hresult, hslug⟩ := List.mem_map.mp (hperm.mem_iff.mpr hslug)
    exact ⟨result, hresult, hslug⟩
  refine ⟨?_, fun result hresult => ?_, fun result hresult => ?_, ?_⟩
  · have hdocuments : (bySlug documents).entries.map Prod.snd = documents := by
      rw [entries_bySlug hslugs, List.map_map]
      exact List.map_id _
    refine (List.perm_ext_iff_of_nodup ?_ ?_).mpr fun document => ⟨fun hdocument => ?_,
      fun hdocument => ?_⟩
    · refine List.Nodup.of_map (·.packSlug) ?_
      rw [List.map_map]
      exact hperm.nodup_iff.mpr hslugs
    · exact List.Nodup.of_map (·.packSlug) hslugs
    · obtain ⟨result, hresult, rfl⟩ := List.mem_map.mp hdocument
      exact hmem result hresult
    · have hown := (get?_bySlug hslugs).mpr ⟨hdocument, rfl⟩
      obtain ⟨result, hresult, hslug⟩ :=
        hfind document.packSlug (Option.isSome_iff_exists.mpr ⟨document, hown⟩)
      have hsame := hget result hresult
      rw [hslug, hown] at hsame
      exact List.mem_map.mpr ⟨result, hresult, (Option.some.inj hsame).symm⟩
  · rw [hiff result hresult]
    constructor
    · intro hcan
      have hnames : ∀ slug ∈ extractRequiredDependencies result.document,
          Compilable parseContentPack (bySlug documents) slug := fun slug hnamed =>
        hcan.names ⟨_, hget result hresult, hnamed⟩
      obtain @⟨_, document, pack, hknown, hparses, -⟩ := hcan
      obtain rfl := Option.some.inj (hknown.symm.trans (hget result hresult))
      refine ⟨⟨pack, hparses⟩, fun slug hnamed => ?_⟩
      obtain ⟨required, hrequired, rfl⟩ := hfind slug (hnames slug hnamed).known
      exact ⟨required, hrequired, rfl, (hiff required hrequired).mpr (hnames _ hnamed)⟩
    · rintro ⟨⟨pack, hparses⟩, hall⟩
      refine .intro (hget result hresult) hparses fun slug hnamed => ?_
      obtain ⟨required, hrequired, rfl, hok⟩ := hall slug hnamed
      exact (hiff required hrequired).mp hok
  · rw [Bool.eq_false_iff, Ne, hiff result hresult, compilable_iff hslugs (hmem result hresult)]
    push Not
    rfl
  · intro before result after hsplit hok slug hnamed
    have hresult : result ∈ progress.results ++ failures := by
      rw [hsplit]
      exact List.mem_append_right _ List.mem_cons_self
    have hcan := (hiff result hresult).mp hok
    have hdependency := hcan.names ⟨_, hget result hresult, hnamed⟩
    -- a compiled pack is among those in order
    obtain ⟨rest, hordered⟩ : ∃ rest, progress.results = before ++ result :: rest := by
      rcases List.append_eq_append_iff.mp hsplit with ⟨part, hbefore, hpart⟩ | ⟨part, hpart, hrest⟩
      · have hlate : result ∈ failures := by
          rw [hpart]
          exact List.mem_append_right _ List.mem_cons_self
        rw [(hfailed result hlate).1] at hok
        cases hok
      · rcases part with _ | ⟨first, rest⟩
        · have hlate : result ∈ failures := by
            rw [List.nil_append] at hrest
            rw [← hrest]
            exact List.mem_cons_self
          rw [(hfailed result hlate).1] at hok
          cases hok
        · obtain ⟨rfl, -⟩ := List.cons.inj hrest
          exact ⟨rest, hpart⟩
    have hslugsOrdered := hcompiled.slugs
    rw [hordered, List.map_append, List.map_cons] at hslugsOrdered
    obtain ⟨required, hrequired, hslug⟩ := List.mem_map.mp (htopo.earlier _ _ _
      hslugsOrdered.symm slug ⟨_, hget result hresult, hnamed⟩ hdependency.known)
    have hearlier : required ∈ progress.results ++ failures := by
      rw [hsplit]
      exact List.mem_append_left _ hrequired
    refine ⟨required, hrequired, hslug, (hiff required hearlier).mpr ?_⟩
    rw [hslug]
    exact hdependency

/-- A document with the packs that it requires. -/
def packDocument (packSlug : String) (requires : List String) : ContentDocument :=
  { packSlug
    document := .record [("metadata", .record [("dependencies", .record [("requires",
      .array (requires.map fun packId => .record [("packId", .string packId)]))])])] }

/-- A pack behind another one, one that requires itself, and one behind it. -/
theorem compileWorkspacePacks_follows_loop :
    ([packDocument "extra" ["base"], packDocument "base" [], packDocument "loop" ["loop"],
        packDocument "late" ["loop"]].map (·.packSlug)).Nodup ∧
      FollowsDependencies (fun document => Except.ok document.packSlug)
        [packDocument "extra" ["base"], packDocument "base" [], packDocument "loop" ["loop"],
          packDocument "late" ["loop"]]
        (compileWorkspacePacks (fun document => Except.ok document.packSlug)
          (fun left right => if left < right then -1 else if left = right then 0 else 1)
          [packDocument "extra" ["base"], packDocument "base" [], packDocument "loop" ["loop"],
            packDocument "late" ["loop"]]) :=
  ⟨by decide, compileWorkspacePacks_follows _ _ (by decide)⟩

end Workspace

end IdleEngine
