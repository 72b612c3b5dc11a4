import IdleEngine.Lib.BreadthFirst
import IdleEngine.Save.Format

/-!
# The migration search

The search for a migration path is breadth-first over the versions. It ends, since every round
takes an entry from the queue and a version is queued only once; it finds a path exactly when a
chain of migrations leads from the source to the target, and the path is a shortest chain
(`findMigrationPath_correct`).

`Searches` is the loop of the source without a bound on its rounds, and the search that counts its
rounds is shown to follow it to its end.
-/

namespace IdleEngine

open BreadthFirst List

variable (migrations : List SchemaMigration)

/-- A chain of registered migrations from one version to another. -/
def MigrationChain : ℚ → ℚ → List SchemaMigration → Prop
  | fromVersion, toVersion, [] => fromVersion = toVersion
  | fromVersion, toVersion, migration :: path =>
      migration ∈ migrations ∧ migration.fromVersion = fromVersion ∧
        MigrationChain migration.toVersion toVersion path

/-- One migration leads from one version to another. -/
def MigrationStep (fromVersion toVersion : ℚ) : Prop :=
  ∃ migration ∈ migrations,
    migration.fromVersion = fromVersion ∧ migration.toVersion = toVersion

/-- The migrations from a version, in the order in which they were registered. -/
def migrationsFrom (version : ℚ) : List SchemaMigration :=
  migrations.filter fun migration => migration.fromVersion = version

/-- The loop of the search runs to its end: the queue is empty, or a path is found. -/
inductive Searches (toVersion : ℚ) :
    MigrationSearch → List ℚ → Option (List SchemaMigration) → Prop
  | exhausted (visited : List ℚ) : Searches toVersion [] visited none
  | found {version : ℚ} {path found : List SchemaMigration} {queue : MigrationSearch}
      {visited : List ℚ}
      (hround : followMigrations toVersion path (migrationsFrom migrations version) queue visited =
        .inl found) : Searches toVersion ((version, path) :: queue) visited (some found)
  | round {version : ℚ} {path : List SchemaMigration} {queue queue' : MigrationSearch}
      {visited visited' : List ℚ} {result : Option (List SchemaMigration)}
      (hround : followMigrations toVersion path (migrationsFrom migrations version) queue visited =
        .inr (queue', visited'))
      (hrest : Searches toVersion queue' visited' result) :
      Searches toVersion ((version, path) :: queue) visited result

variable {migrations}

/-! ### Chains -/

variable {fromVersion version : ℚ} {path : List SchemaMigration}

theorem MigrationChain.snoc {migration : SchemaMigration}
    (h : MigrationChain migrations fromVersion version path) (hmem : migration ∈ migrations)
    (hfrom : migration.fromVersion = version) :
    MigrationChain migrations fromVersion migration.toVersion (path ++ [migration]) := by
  induction path generalizing fromVersion with
  | nil =>
    obtain rfl : fromVersion = version := h
    exact ⟨hmem, hfrom, rfl⟩
  | cons first path ih =>
    obtain ⟨hfirst, hstart, hrest⟩ := h
    exact ⟨hfirst, hstart, ih hrest⟩

variable {toVersion : ℚ}

theorem MigrationChain.walk (h : MigrationChain migrations fromVersion toVersion path) :
    Walk (MigrationStep migrations) path.length fromVersion toVersion := by
  induction path generalizing fromVersion with
  | nil => exact h
  | cons migration path ih =>
    obtain ⟨hmem, hfrom, hrest⟩ := h
    exact (ih hrest).cons ⟨migration, hmem, hfrom, rfl⟩

/-! ### A round -/

/-- What a round does: it finds a migration to the target, or it queues the migrations to new
versions, with a path to each. -/
theorem followMigrations_spec (toVersion : ℚ) (path followed : List SchemaMigration)
    (queue : MigrationSearch) (visited : List ℚ) :
    (∃ migration ∈ followed, migration.toVersion = toVersion ∧
        followMigrations toVersion path followed queue visited = .inl (path ++ [migration])) ∨
      ∃ new : List SchemaMigration, ∃ visited', List.Sublist new followed ∧
        followMigrations toVersion path followed queue visited =
          .inr (queue ++ new.map (fun migration => (migration.toVersion, path ++ [migration])),
            visited') ∧
        (∀ version, version ∈ visited' ↔
          version ∈ visited ∨ version ∈ new.map SchemaMigration.toVersion) ∧
        (∀ migration ∈ new, migration.toVersion ∉ visited ∧ migration.toVersion ≠ toVersion) ∧
        ∀ migration ∈ followed, migration.toVersion ∈ visited' := by
  induction followed generalizing queue visited with
  | nil =>
    refine .inr ⟨[], visited, List.Sublist.refl [], by rw [followMigrations]; simp, by simp, ?_, ?_⟩
    · exact fun _ h => absurd h not_mem_nil
    · exact fun _ h => absurd h not_mem_nil
  | cons migration rest ih =>
    rw [followMigrations]
    by_cases hvisited : migration.toVersion ∈ visited
    · rw [if_pos (contains_iff_mem.mpr hvisited)]
      rcases ih queue visited with ⟨m, hm, htarget, hrun⟩ | ⟨new, visited', hsub, hrun, hmem, hnew, hall⟩
      · exact .inl ⟨m, mem_cons_of_mem migration hm, htarget, hrun⟩
      · refine .inr ⟨new, visited', hsub.cons migration, hrun, hmem, hnew, ?_⟩
        exact forall_mem_cons.mpr ⟨(hmem _).mpr (.inl hvisited), hall⟩
    · rw [if_neg (fun h => hvisited (contains_iff_mem.mp h))]
      by_cases htarget : migration.toVersion = toVersion
      · rw [if_pos htarget]
        exact .inl ⟨migration, mem_cons_self, htarget, rfl⟩
      · rw [if_neg htarget]
        rcases ih (queue ++ [(migration.toVersion, path ++ [migration])])
            (migration.toVersion :: visited) with
          ⟨m, hm, hfound, hrun⟩ | ⟨new, visited', hsub, hrun, hmem, hnew, hall⟩
        · exact .inl ⟨m, mem_cons_of_mem migration hm, hfound, hrun⟩
        · refine .inr ⟨migration :: new, visited', hsub.cons_cons migration, ?_, fun version => ?_,
            ?_, ?_⟩
          · rw [hrun, append_assoc]
            rfl
          · rw [hmem, map_cons, mem_cons, mem_cons]
            tauto
          · refine forall_mem_cons.mpr ⟨⟨hvisited, htarget⟩, fun m hm => ?_⟩
            exact ⟨fun h => (hnew m hm).1 (mem_cons_of_mem _ h), (hnew m hm).2⟩
          · exact forall_mem_cons.mpr ⟨(hmem _).mpr (.inl mem_cons_self), hall⟩

/-! ### The end of the search -/

/-- How many rounds are left at most: one for each queued version and one for each migration to a
version that is not visited. -/
def roundsLeft (migrations : List SchemaMigration) (queue : MigrationSearch) (visited : List ℚ) :
    ℕ :=
  queue.length + (migrations.filter fun migration => migration.toVersion ∉ visited).length

variable {queue : MigrationSearch} {visited : List ℚ}

/-- A round uses one up. -/
theorem roundsLeft_follow {queue' : MigrationSearch} {visited' : List ℚ}
    (h : followMigrations toVersion path (migrationsFrom migrations version) queue visited =
      .inr (queue', visited')) :
    roundsLeft migrations queue' visited' + 1 ≤
      roundsLeft migrations ((version, path) :: queue) visited := by
  rcases followMigrations_spec toVersion path (migrationsFrom migrations version) queue visited with
    ⟨m, -, -, hrun⟩ | ⟨new, visited₁, hsub, hrun, hmem, hnew, -⟩
  · rw [h] at hrun
    cases hrun
  rw [h] at hrun
  obtain ⟨rfl, rfl⟩ := Prod.mk.inj (Sum.inr.inj hrun)
  -- the new migrations lead to versions that were not visited and are now
  have hpart : List.Sublist new ((migrations.filter fun m => m.toVersion ∉ visited).filter
      fun m => m.toVersion ∈ visited') := by
    have hregistered : List.Sublist new migrations := hsub.trans filter_sublist
    have hkept : (new.filter fun m => m.toVersion ∉ visited).filter
        (fun m => m.toVersion ∈ visited') = new := by
      rw [filter_filter, filter_eq_self]
      intro m hm
      have hseen : m.toVersion ∈ visited' := (hmem _).mpr (.inr (mem_map_of_mem hm))
      simp [hseen, (hnew m hm).1]
    have hfiltered := (hregistered.filter fun m => decide (m.toVersion ∉ visited)).filter
      fun m => decide (m.toVersion ∈ visited')
    rwa [hkept] at hfiltered
  have hrest : migrations.filter (fun m => m.toVersion ∉ visited') =
      (migrations.filter fun m => m.toVersion ∉ visited).filter
        fun m => !decide (m.toVersion ∈ visited') := by
    rw [filter_filter]
    refine filter_congr fun m _ => ?_
    by_cases hm : m.toVersion ∈ visited'
    · simp [hm]
    · have hnot : m.toVersion ∉ visited := fun hold => hm ((hmem _).mpr (.inl hold))
      simp [hm, hnot]
  have hsplit := length_eq_length_filter_add (l := migrations.filter fun m =>
    m.toVersion ∉ visited) (fun m => decide (m.toVersion ∈ visited'))
  rw [roundsLeft, roundsLeft, hrest, length_append, length_map, length_cons, hsplit]
  have hle := hpart.length_le
  omega

/-- **The search ends.** With as many rounds as are left and one more, the search that counts its
rounds follows the loop to its end. -/
theorem searches_searchRounds {rounds : ℕ} (h : roundsLeft migrations queue visited < rounds) :
    Searches migrations toVersion queue visited
      (searchRounds migrations toVersion rounds queue visited) := by
  induction rounds generalizing queue visited with
  | zero => exact absurd h (Nat.not_lt_zero _)
  | succ rounds ih =>
    cases queue with
    | nil => exact .exhausted visited
    | cons entry queue =>
      obtain ⟨version, path⟩ := entry
      rw [searchRounds]
      cases hround : followMigrations toVersion path (migrationsFrom migrations version) queue
          visited with
      | inl found =>
        rw [migrationsFrom] at hround
        rw [hround]
        exact .found hround
      | inr state =>
        obtain ⟨queue', visited'⟩ := state
        have hleft := roundsLeft_follow hround
        have hrest : Searches migrations toVersion queue' visited'
            (searchRounds migrations toVersion rounds queue' visited') := ih (by omega)
        rw [migrationsFrom] at hround
        rw [hround]
        exact .round hround hrest

/-! ### The invariant -/

/-- What holds between two rounds: the visited versions are the marked ones of a breadth-first
search, each queued version comes with a chain as long as it is deep, and the target is not
visited. -/
structure SearchInvariant (migrations : List SchemaMigration) (fromVersion toVersion : ℚ)
    (queue : MigrationSearch) (visited : List ℚ) (depth : ℚ → ℕ) : Prop where
  frontier : Frontier (MigrationStep migrations) fromVersion (· ∈ visited) depth
    (queue.map Prod.fst)
  chains : ∀ entry ∈ queue, MigrationChain migrations fromVersion entry.1 entry.2 ∧
    entry.2.length = depth entry.1
  target : toVersion ∉ visited

theorem searchInvariant_start (h : fromVersion ≠ toVersion) :
    SearchInvariant migrations fromVersion toVersion [(fromVersion, [])] [fromVersion]
      fun _ => 0 where
  frontier := by
    have hstart := Frontier.start (MigrationStep migrations) fromVersion
    have hmarked : (· ∈ [fromVersion]) = (· = fromVersion) := by
      funext version
      exact propext mem_singleton
    rw [hmarked]
    exact hstart
  chains := by
    intro entry hentry
    obtain rfl := mem_singleton.mp hentry
    exact ⟨rfl, rfl⟩
  target hmem := h (mem_singleton.mp hmem).symm

/-- A round keeps the invariant. -/
theorem SearchInvariant.follow {queue' : MigrationSearch} {visited' : List ℚ} {depth : ℚ → ℕ}
    (h : SearchInvariant migrations fromVersion toVersion ((version, path) :: queue) visited depth)
    (hround : followMigrations toVersion path (migrationsFrom migrations version) queue visited =
      .inr (queue', visited')) :
    ∃ depth', SearchInvariant migrations fromVersion toVersion queue' visited' depth' := by
  rcases followMigrations_spec toVersion path (migrationsFrom migrations version) queue visited with
    ⟨m, -, -, hrun⟩ | ⟨new, visited₁, hsub, hrun, hmem, hnew, hall⟩
  · rw [hround] at hrun
    cases hrun
  rw [hround] at hrun
  obtain ⟨rfl, rfl⟩ := Prod.mk.inj (Sum.inr.inj hrun)
  obtain ⟨hchain, hlength⟩ := h.chains _ mem_cons_self
  have hnewMem : ∀ w ∈ new.map SchemaMigration.toVersion, w ∉ visited := by
    intro w hw
    obtain ⟨m, hm, rfl⟩ := mem_map.mp hw
    exact (hnew m hm).1
  -- the new versions are one deeper than the version that led to them
  let depth' : ℚ → ℕ := fun w => if w ∈ visited then depth w else depth version + 1
  have hold : ∀ w, w ∈ visited → depth' w = depth w := fun w hw => if_pos hw
  have hnext : ∀ w ∈ new.map SchemaMigration.toVersion, depth' w = depth version + 1 :=
    fun w hw => if_neg (hnewMem w hw)
  have hqueued : ∀ entry ∈ queue, entry.1 ∈ visited := fun entry hentry =>
    h.frontier.queued entry.1 (mem_map_of_mem (mem_cons_of_mem _ hentry))
  refine ⟨depth', ?_, fun entry hentry => ?_, fun htarget => ?_⟩
  · have hstep : ∀ w, MigrationStep migrations version w →
        w ∈ visited ∨ w ∈ new.map SchemaMigration.toVersion := by
      rintro w ⟨m, hm, hfrom, rfl⟩
      exact (hmem _).mp (hall m (mem_filter.mpr ⟨hm, by simpa using hfrom⟩))
    have hmarked : (· ∈ visited') =
        fun w => w ∈ visited ∨ w ∈ new.map SchemaMigration.toVersion :=
      funext fun w => propext (hmem w)
    rw [hmarked, map_append, map_map]
    exact h.frontier.expand hstep hold hnext
  · rcases mem_append.mp hentry with hentry | hentry
    · obtain ⟨hchain', hlength'⟩ := h.chains entry (mem_cons_of_mem _ hentry)
      exact ⟨hchain', hlength'.trans (hold _ (hqueued entry hentry)).symm⟩
    · obtain ⟨m, hm, rfl⟩ := mem_map.mp hentry
      have hfrom := mem_filter.mp (hsub.subset hm)
      refine ⟨hchain.snoc hfrom.1 (by simpa using hfrom.2), ?_⟩
      rw [hnext _ (mem_map_of_mem hm), ← hlength, length_append]
      rfl
  · rcases (hmem _).mp htarget with hold | hfound
    · exact h.target hold
    · obtain ⟨m, hm, hto⟩ := mem_map.mp hfound
      exact (hnew m hm).2 hto

/-- **The search is right.** It ends without a path only where there is no chain, and a path it
finds is a shortest chain. -/
theorem Searches.correct {result : Option (List SchemaMigration)} {depth : ℚ → ℕ}
    (h : Searches migrations toVersion queue visited result)
    (hinv : SearchInvariant migrations fromVersion toVersion queue visited depth) :
    (result = none → ∀ chain, ¬MigrationChain migrations fromVersion toVersion chain) ∧
      ∀ path, result = some path → MigrationChain migrations fromVersion toVersion path ∧
        ∀ chain, MigrationChain migrations fromVersion toVersion chain →
          path.length ≤ chain.length := by
  induction h generalizing depth with
  | exhausted visited =>
    refine ⟨fun _ chain hchain => ?_, fun path hpath => absurd hpath.symm (Option.some_ne_none path)⟩
    exact hinv.frontier.unreachable hinv.target _ hchain.walk
  | @found version path found queue visited hround =>
    refine ⟨fun hnone => absurd hnone (Option.some_ne_none found), fun path' hpath => ?_⟩
    obtain rfl := Option.some.inj hpath
    obtain ⟨hchain, hlength⟩ := hinv.chains _ mem_cons_self
    rcases followMigrations_spec toVersion path (migrationsFrom migrations version) queue visited
      with ⟨m, hm, hto, hrun⟩ | ⟨_, _, -, hrun, -⟩
    · rw [hround] at hrun
      obtain rfl := Sum.inl.inj hrun
      have hfrom := mem_filter.mp hm
      refine ⟨hto ▸ hchain.snoc hfrom.1 (by simpa using hfrom.2), fun chain hchain' => ?_⟩
      have hshort := hinv.frontier.shortest hinv.target hchain'.walk
      rw [length_append, hlength]
      exact hshort
    · rw [hround] at hrun
      cases hrun
  | round hround _ ih =>
    obtain ⟨depth', hinv'⟩ := hinv.follow hround
    exact ih hinv'

/-- **The migration search.** It ends; it finds a path exactly when the target can be reached from
the source; and the path is a chain of registered migrations that no chain is shorter than. -/
theorem findMigrationPath_correct (migrations : List SchemaMigration)
    (fromVersion toVersion : ℚ) :
    (fromVersion ≠ toVersion → Searches migrations toVersion [(fromVersion, [])] [fromVersion]
      (findMigrationPath migrations fromVersion toVersion)) ∧
      ((findMigrationPath migrations fromVersion toVersion).isSome ↔
        ∃ chain, MigrationChain migrations fromVersion toVersion chain) ∧
      ∀ path, findMigrationPath migrations fromVersion toVersion = some path →
        MigrationChain migrations fromVersion toVersion path ∧
          ∀ chain, MigrationChain migrations fromVersion toVersion chain →
            path.length ≤ chain.length := by
  by_cases hsame : fromVersion = toVersion
  · rw [findMigrationPath, if_pos hsame]
    refine ⟨fun hne => absurd hsame hne, ⟨fun _ => ⟨[], hsame⟩, fun _ => rfl⟩, fun path hpath => ?_⟩
    obtain rfl := Option.some.inj hpath
    exact ⟨hsame, fun _ _ => Nat.zero_le _⟩
  · have hleft : roundsLeft migrations [(fromVersion, [])] [fromVersion] < migrations.length + 2 := by
      have hle := List.length_filter_le (fun m : SchemaMigration => m.toVersion ∉ [fromVersion])
        migrations
      rw [roundsLeft, List.length_singleton]
      omega
    have hsearch : Searches migrations toVersion [(fromVersion, [])] [fromVersion] _ :=
      searches_searchRounds hleft
    have hpath : findMigrationPath migrations fromVersion toVersion =
        searchRounds migrations toVersion (migrations.length + 2) [(fromVersion, [])]
          [fromVersion] := by
      rw [findMigrationPath, if_neg hsame]
    rw [← hpath] at hsearch
    obtain ⟨hnone, hsome⟩ := hsearch.correct (searchInvariant_start hsame)
    refine ⟨fun _ => hsearch, ⟨fun h => ?_, fun ⟨chain, hchain⟩ => ?_⟩, hsome⟩
    · obtain ⟨path, hfound⟩ := Option.isSome_iff_exists.mp h
      exact ⟨path, (hsome path hfound).1⟩
    · by_contra hnot
      exact hnone (Option.not_isSome_iff_eq_none.mp hnot) chain hchain

end IdleEngine
