import IdleEngine.Content.ValidationCache

/-!
# Validators that share a cache

What a full validation comes to depends on the options that it reads and not on the sink
(`validateFully_result_eq`), and a sink receives the warnings of the result followed by the issues
of the balance validation (`validateFully_sent`). So a stored result answers for a later call when
it comes from the same options, and its replay is complete exactly when no sink misses errors of the
balance validation (`replayCached_sent_iff`).

In a run of calls whose hits are all of that kind, each call answers as without a cache. The digest
is of the pack alone, so a validator with other options gets the same hit: a pack that one validator
accepts is then accepted for another that rejects it.
-/

namespace IdleEngine

open Stateful ValidationCache

variable {Input Body Pack : Type}

/-! ### Two sinks side by side -/

/-- The same warnings were collected. -/
def SameWarnings (s t : WarningSinks) : Prop := s.warnings = t.warnings

theorem send_lockstep (options options' : ContentSchemaOptions)
    (warnings : List ContentSchemaWarning) :
    Lockstep SameWarnings (options.send warnings) (options'.send warnings) :=
  .modify fun _ _ h => h

theorem sink_lockstep (options options' : ContentSchemaOptions)
    (warnings : List ContentSchemaWarning) :
    Lockstep SameWarnings (options.sink warnings) (options'.sink warnings) := by
  refine .bind (.modify fun s t h => ?_) fun _ => send_lockstep _ _ _
  exact congrArg (· ++ warnings) h

theorem normalizeAllowlistEntry_lockstep (options options' : ContentSchemaOptions)
    (severity : WarningSeverity) (schema : String → Except (List ZodIssue) String)
    (pathPrefix : List PathSegment) (entries : AllowlistEntries) (entry : String × ℕ) :
    Lockstep SameWarnings
      (normalizeAllowlistEntry options severity schema pathPrefix entries entry)
      (normalizeAllowlistEntry options' severity schema pathPrefix entries entry) := by
  unfold normalizeAllowlistEntry
  dsimp only
  cases schema entry.1 with
  | ok data => exact .pure _
  | error issues =>
    dsimp only
    split
    · exact .pure _
    · exact .bind (sink_lockstep _ _ _) fun _ => .pure _

theorem normalizeAllowlistEntries_lockstep (options options' : ContentSchemaOptions)
    (entries : Option (List String)) (severity : WarningSeverity)
    (schema : String → Except (List ZodIssue) String) (pathPrefix : List PathSegment) :
    Lockstep SameWarnings
      (normalizeAllowlistEntries options entries severity schema pathPrefix)
      (normalizeAllowlistEntries options' entries severity schema pathPrefix) := by
  unfold normalizeAllowlistEntries
  refine .bind (.foldlM (fun acc entry _ => ?_) _) fun normalized => ?_
  · exact normalizeAllowlistEntry_lockstep _ _ _ _ _ _ _
  · split
    · exact .throw _
    · exact .pure _

theorem normalizeAllowlist_lockstep (options options' : ContentSchemaOptions)
    (spec : Option AllowlistSpecInput) (schema : String → Except (List ZodIssue) String)
    (name : String) :
    Lockstep SameWarnings (normalizeAllowlist options spec schema name)
      (normalizeAllowlist options' spec schema name) := by
  cases spec with
  | none => exact .pure _
  | some spec =>
    refine .bind ?_ fun _ => .pure _
    refine .bind (normalizeAllowlistEntries_lockstep _ _ _ _ _ _) fun _ => ?_
    exact .bind (normalizeAllowlistEntries_lockstep _ _ _ _ _ _) fun _ =>
      .pure _

theorem parseEntries_lockstep (schema : String → Except (List ZodIssue) String)
    (entries : Option (List String)) :
    Lockstep SameWarnings (parseEntries schema entries) (parseEntries schema entries) := by
  unfold parseEntries
  cases (entries.getD []).mapM schema with
  | ok parsed => exact .pure _
  | error issues => exact .throw _

variable (schemas : PackSchemas Input Body Pack)

variable {options options' : ContentSchemaOptions}

theorem buildCrossReferenceContext_lockstep
    (h : options.toValidationOptions = options'.toValidationOptions) :
    Lockstep SameWarnings (buildCrossReferenceContext schemas options)
      (buildCrossReferenceContext schemas options') := by
  unfold buildCrossReferenceContext
  rw [h]
  refine .bind (normalizeAllowlist_lockstep _ _ _ _ _) fun _ => ?_
  refine .bind (normalizeAllowlist_lockstep _ _ _ _ _) fun _ => ?_
  refine .bind (normalizeAllowlist_lockstep _ _ _ _ _) fun _ => ?_
  refine .bind (parseEntries_lockstep _ _) fun _ => ?_
  refine .bind (parseEntries_lockstep _ _) fun _ => ?_
  exact .pure _

theorem runFullValidation_lockstep (pack : PackDocument Body)
    (h : options.toValidationOptions = options'.toValidationOptions) :
    Lockstep SameWarnings (runFullValidation schemas pack options)
      (runFullValidation schemas pack options') := by
  refine .bind ?_ fun normalized => ?_
  · refine .bind (buildCrossReferenceContext_lockstep schemas h) fun context => ?_
    refine .bind ?_ fun _ => ?_
    · unfold runValidationRefinements refinementFindings
      rw [h]
      refine .bind (sink_lockstep _ _ _) fun _ => ?_
      split
      · exact .throw _
      · exact .pure _
    · exact .bind (sink_lockstep _ _ _) fun _ => .pure _
  · unfold runBalance
    rw [h]
    refine .bind (send_lockstep _ _ _) fun _ => ?_
    split
    · exact .throw _
    · refine .get_bind fun s t hst => ?_
      rw [show s.warnings = t.warnings from hst]
      exact .pure _

/-- **What a validation comes to does not depend on the sink.** -/
theorem validateFully_result_eq (pack : PackDocument Body)
    (h : options.toValidationOptions = options'.toValidationOptions) :
    (validateFully schemas pack options).result = (validateFully schemas pack options').result := by
  have hrun := runFullValidation_lockstep schemas pack h ⟨[], []⟩ ⟨[], []⟩ rfl
  unfold validateFully
  generalize runFullValidation schemas pack options ⟨[], []⟩ = r at hrun
  generalize runFullValidation schemas pack options' ⟨[], []⟩ = r' at hrun
  cases hrun with
  | ok a h => rfl
  | error e h => rfl

/-! ### What a sink receives -/

/-- Some warnings were collected and sent. -/
def Sunk (options : ContentSchemaOptions) (s s' : WarningSinks) : Prop :=
  ∃ warnings, s' =
    { warnings := s.warnings ++ warnings
      sent := if options.warningSink then s.sent ++ warnings else s.sent }

/-- The sink has received what was collected, if there is one. -/
def InStep (options : ContentSchemaOptions) (s : WarningSinks) : Prop :=
  s.sent = if options.warningSink then s.warnings else []

theorem Sunk.inStep {s s' : WarningSinks} (hs : InStep options s) (h : Sunk options s s') :
    InStep options s' := by
  obtain ⟨warnings, rfl⟩ := h
  unfold InStep at hs ⊢
  dsimp only
  rw [hs]
  split <;> rfl

theorem sink_performs (options : ContentSchemaOptions) (warnings : List ContentSchemaWarning) :
    Performs (Sunk options) (options.sink warnings) :=
  fun _ => .single ⟨warnings, rfl⟩

theorem normalizeAllowlistEntries_performs (options : ContentSchemaOptions)
    (entries : Option (List String)) (severity : WarningSeverity)
    (schema : String → Except (List ZodIssue) String) (pathPrefix : List PathSegment) :
    Performs (Sunk options)
      (normalizeAllowlistEntries options entries severity schema pathPrefix) := by
  unfold normalizeAllowlistEntries
  refine .bind (Performs.foldlM (fun acc entry _ => ?_) _) fun normalized => ?_
  · unfold normalizeAllowlistEntry
    dsimp only
    cases schema entry.1 with
    | ok data => exact .pure _
    | error issues =>
      dsimp only
      split
      · exact .pure _
      · exact .bind (sink_performs _ _) fun _ => Performs.pure _
  · split
    · exact .throw _
    · exact .pure _

theorem normalizeAllowlist_performs (options : ContentSchemaOptions)
    (spec : Option AllowlistSpecInput) (schema : String → Except (List ZodIssue) String)
    (name : String) : Performs (Sunk options) (normalizeAllowlist options spec schema name) := by
  cases spec with
  | none => exact .pure _
  | some spec =>
    refine .bind ?_ fun _ => Performs.pure _
    refine .bind (normalizeAllowlistEntries_performs _ _ _ _ _) fun _ => ?_
    exact .bind (normalizeAllowlistEntries_performs _ _ _ _ _) fun _ => Performs.pure _

theorem parseEntries_performs (options : ContentSchemaOptions)
    (schema : String → Except (List ZodIssue) String) (entries : Option (List String)) :
    Performs (Sunk options) (parseEntries schema entries) := by
  unfold parseEntries
  cases (entries.getD []).mapM schema with
  | ok parsed => exact .pure _
  | error issues => exact .throw _

theorem runChecks_performs (pack : PackDocument Body) (options : ContentSchemaOptions) :
    Performs (Sunk options) (runChecks schemas pack options) := by
  refine .bind ?_ fun context => ?_
  · refine .bind (normalizeAllowlist_performs _ _ _ _) fun _ => ?_
    refine .bind (normalizeAllowlist_performs _ _ _ _) fun _ => ?_
    refine .bind (normalizeAllowlist_performs _ _ _ _) fun _ => ?_
    refine .bind (parseEntries_performs _ _ _) fun _ => ?_
    exact .bind (parseEntries_performs _ _ _) fun _ => Performs.pure _
  · refine .bind ?_ fun _ => ?_
    · refine .bind (sink_performs _ _) fun _ => ?_
      split
      · exact .throw _
      · exact .pure _
    · exact .bind (sink_performs _ _) fun _ => Performs.pure _

variable {pack : PackDocument Body}

theorem runChecks_ok {normalized : Pack} {s t : WarningSinks}
    (h : runChecks schemas pack options s = .ok normalized t) :
    normalized = (schemas.normalizeContentPack pack).2 := by
  obtain ⟨context, s₁, -, h⟩ := bind_ok h
  obtain ⟨_, s₂, -, h⟩ := bind_ok h
  obtain ⟨_, s₃, -, h⟩ := bind_ok h
  exact (EStateM.Result.ok.inj h).1.symm

/-- **A validation with a result has sent its warnings and then all issues of the balance
validation.** -/
theorem validateFully_sent {result : ContentPackValidationResult Pack}
    (h : (validateFully schemas pack options).result = .ok result) :
    result.pack = (schemas.normalizeContentPack pack).2 ∧
      result.balanceWarnings = balanceWarnings schemas result.pack options.toValidationOptions ∧
      (validateFully schemas pack options).sent =
        if options.warningSink then
          result.warnings ++ balanceIssues schemas result.pack options.toValidationOptions
        else [] := by
  unfold validateFully at h ⊢
  dsimp only at h ⊢
  obtain ⟨final, hfinal⟩ : ∃ t, runFullValidation schemas pack options ⟨[], []⟩ = .ok result t := by
    cases hrun : runFullValidation schemas pack options ⟨[], []⟩ with
    | ok a t =>
      rw [hrun] at h
      obtain rfl : a = result := Except.ok.inj h
      exact ⟨t, rfl⟩
    | error e t =>
      rw [hrun] at h
      cases h
  rw [hfinal]
  obtain ⟨normalized, s, hchecks, hbalance⟩ := bind_ok hfinal
  have hstep : InStep options s := by
    have hkept := (runChecks_performs schemas pack options).keeps (P := InStep options)
      (fun _ _ => Sunk.inStep) (s := ⟨[], []⟩) (by unfold InStep; split <;> rfl)
    rwa [hchecks] at hkept
  obtain rfl := runChecks_ok schemas hchecks
  obtain ⟨_, s₁, hsend, hbalance⟩ := bind_ok hbalance
  obtain ⟨-, rfl⟩ := EStateM.Result.ok.inj hsend
  split at hbalance
  · cases hbalance
  · obtain ⟨sinks, s₂, hget, hbalance⟩ := bind_ok hbalance
    obtain ⟨rfl, rfl⟩ := EStateM.Result.ok.inj hget
    obtain ⟨rfl, rfl⟩ := EStateM.Result.ok.inj hbalance
    refine ⟨rfl, rfl, ?_⟩
    unfold InStep at hstep
    rw [final]
    dsimp only
    rw [hstep]
    split <;> rfl

/-- **Replaying a result of the same options sends what the validation sends exactly when there is
no sink or the balance validation found no errors.** -/
theorem replayCached_sent_iff {cached : CachedValidationResult Pack}
    (h : (validateFully schemas pack options).result =
      .ok (cachedResultToValidationResult cached)) :
    (replayCached options cached).sent = (validateFully schemas pack options).sent ↔
      (options.warningSink = true →
        balanceErrors schemas (schemas.normalizeContentPack pack).2
          options.toValidationOptions = []) := by
  obtain ⟨hpack, hbalance, hsent⟩ := validateFully_sent schemas h
  change cached.balanceWarnings = _ at hbalance
  rw [hsent, ← hpack, replayCached, hbalance]
  cases options.warningSink with
  | false => simp
  | true =>
    rw [if_pos rfl, if_pos rfl]
    change cached.warnings ++ _ = cached.warnings ++ _ ↔ _
    rw [List.append_cancel_left_eq, balanceWarnings, List.filter_eq_self, balanceErrors]
    simp

/-! ### A run of calls -/

/-- The shared cache, and under each key the options of the validator that stored the entry. -/
structure SharedCache (Pack : Type) where
  cache : ValidationCache Pack
  storedBy : String → Option ValidationOptions

namespace SharedCache

/-- A new cache. -/
def create (maxSize : Option JsNumber) : SharedCache Pack :=
  ⟨createValidationCache maxSize, fun _ => none⟩

/-- The key under which a call stores its result. -/
def storedKey (shared : SharedCache Pack) (call : ParseCall Input) : Option String :=
  match schemas.contentPackSchema call.input with
  | .error _ => none
  | .ok pack =>
    if call.options.cache ∧ (shared.cache.get (packCacheKey schemas pack)).1 = none ∧
        (validateFully schemas pack call.options).result.toOption.isSome then
      some (packCacheKey schemas pack)
    else none

/-- The options that stored each entry, after a call. -/
def storedByAfter (shared : SharedCache Pack) (call : ParseCall Input) :
    String → Option ValidationOptions :=
  (storedKey schemas shared call).elim shared.storedBy fun key =>
    Function.update shared.storedBy key (some call.options.toValidationOptions)

/-- The cache after a call. -/
def after (shared : SharedCache Pack) (call : ParseCall Input) : SharedCache Pack :=
  ⟨(call.run schemas shared.cache).2, storedByAfter schemas shared call⟩

/-- The responses to calls in a row. -/
def responses (shared : SharedCache Pack) : List (ParseCall Input) → List (ParseResponse Pack)
  | [] => []
  | call :: calls =>
    (call.run schemas shared.cache).1 :: responses (after schemas shared call) calls

/-- If the call hits the cache, then on a result that the same options stored, and a sink misses no
balance errors. -/
def HitsOwn (shared : SharedCache Pack) (call : ParseCall Input) : Prop :=
  ∀ pack, schemas.contentPackSchema call.input = .ok pack → call.options.cache = true →
    (shared.cache.cache.get? (packCacheKey schemas pack)).isSome = true →
      shared.storedBy (packCacheKey schemas pack) = some call.options.toValidationOptions ∧
        (call.options.warningSink = true →
          balanceErrors schemas (schemas.normalizeContentPack pack).2
            call.options.toValidationOptions = [])

/-- Every call of a run does so. -/
def AllHitOwn (shared : SharedCache Pack) : List (ParseCall Input) → Prop
  | [] => True
  | call :: calls => HitsOwn schemas shared call ∧ AllHitOwn (after schemas shared call) calls

/-- Every entry is the result of a pack of the run under the options that are kept for it. -/
def Remembers (calls : List (ParseCall Input)) (shared : SharedCache Pack) : Prop :=
  ∀ key cached, shared.cache.cache.get? key = some cached →
    ∃ earlier ∈ calls, ∃ pack, schemas.contentPackSchema earlier.input = .ok pack ∧
      key = packCacheKey schemas pack ∧
      shared.storedBy key = some earlier.options.toValidationOptions ∧
      (validateFully schemas pack earlier.options).result =
        .ok (cachedResultToValidationResult cached)

end SharedCache

/-- The digests of different packs of some calls differ. -/
def DigestsDistinct (calls : List (ParseCall Input)) : Prop :=
  ∀ call ∈ calls, ∀ call' ∈ calls, ∀ pack pack',
    schemas.contentPackSchema call.input = .ok pack →
    schemas.contentPackSchema call'.input = .ok pack' →
    schemas.computePackDigest pack = schemas.computePackDigest pack' → pack = pack'

theorem packCacheKey_inj {pack' : PackDocument Body}
    (h : packCacheKey schemas pack = packCacheKey schemas pack') :
    schemas.computePackDigest pack = schemas.computePackDigest pack' := by
  have hhash : schemas.packHash pack = schemas.packHash pack' := (String.append_right_inj _).mp h
  rw [PackSchemas.computePackDigest, PackSchemas.computePackDigest, hhash]

namespace SharedCache

theorem remembers_create (maxSize : Option JsNumber) (calls : List (ParseCall Input)) :
    Remembers schemas calls (create maxSize : SharedCache Pack) := by
  intro key cached h
  cases h

variable {calls : List (ParseCall Input)} {shared : SharedCache Pack}

theorem remembers_of_get (h : Remembers schemas calls shared) {cache : ValidationCache Pack}
    (hcache : ∀ key, cache.cache.get? key = shared.cache.cache.get? key) :
    Remembers schemas calls ⟨cache, shared.storedBy⟩ :=
  fun key cached hget => h key cached ((hcache key).symm.trans hget)

/-- **A call keeps the entries explained.** -/
theorem Remembers.after (h : Remembers schemas calls shared) {call : ParseCall Input}
    (hcall : call ∈ calls) :
    Remembers schemas calls (after schemas shared call) := by
  unfold SharedCache.after storedByAfter storedKey ParseCall.run
  cases hparse : schemas.contentPackSchema call.input with
  | error issues => exact h
  | ok pack =>
    dsimp only
    split
    next hcache =>
      unfold validateWithCache
      dsimp only
      cases hfound : (shared.cache.get (packCacheKey schemas pack)).1 with
      | some cached =>
        rw [if_neg (by simp)]
        exact remembers_of_get schemas h (shared.cache.get?_get _)
      | none =>
        cases hrun : (validateFully schemas pack call.options).result with
        | error e =>
          rw [if_neg (by simp [Except.toOption])]
          exact remembers_of_get schemas h (shared.cache.get?_get _)
        | ok result =>
          rw [if_pos ⟨hcache, rfl, rfl⟩]
          intro key cached hget
          rcases get?_set hget with ⟨rfl, rfl⟩ | hold
          · exact ⟨call, hcall, pack, hparse, rfl, Function.update_self .., hrun⟩
          · rw [get?_get] at hold
            obtain ⟨earlier, hearlier, pack', hparse', hkey, hby, hresult⟩ := h key cached hold
            refine ⟨earlier, hearlier, pack', hparse', hkey, ?_, hresult⟩
            -- the call missed the cache, so the entry has another key
            have hne : key ≠ packCacheKey schemas pack := by
              rintro rfl
              rw [get_fst, hold] at hfound
              cases hfound
            exact (Function.update_of_ne hne ..).trans hby
    next hcache =>
      rw [if_neg fun hstore => hcache hstore.1]
      exact h

/-- **A call that hits no foreign entry answers as without a cache.** -/
theorem run_eq_uncached (hdigests : DigestsDistinct schemas calls)
    (h : Remembers schemas calls shared) {call : ParseCall Input} (hcall : call ∈ calls)
    (hown : HitsOwn schemas shared call) :
    (call.run schemas shared.cache).1 = call.uncached schemas := by
  unfold ParseCall.run ParseCall.uncached
  cases hparse : schemas.contentPackSchema call.input with
  | error issues => rfl
  | ok pack =>
    dsimp only
    split
    next hcache =>
      unfold validateWithCache
      dsimp only
      cases hfound : (shared.cache.get (packCacheKey schemas pack)).1 with
      | none => rfl
      | some cached =>
        rw [get_fst] at hfound
        obtain ⟨hby, hcomplete⟩ := hown pack hparse hcache (by rw [hfound]; rfl)
        obtain ⟨earlier, hearlier, pack', hparse', hkey, hby', hresult⟩ := h _ cached hfound
        obtain rfl := hdigests call hcall earlier hearlier pack pack' hparse hparse'
          (packCacheKey_inj schemas hkey)
        have hoptions : call.options.toValidationOptions = earlier.options.toValidationOptions :=
          Option.some.inj (hby.symm.trans hby')
        have hown : (validateFully schemas pack call.options).result =
            .ok (cachedResultToValidationResult cached) :=
          (validateFully_result_eq schemas pack hoptions).trans hresult
        have hsent := (replayCached_sent_iff schemas hown).mpr hcomplete
        change ParseResponse.mk (call.method.answer _) _ = ParseResponse.mk (call.method.answer _) _
        rw [hsent, hown]
        rfl
    next => rfl

/-- From an explained cache on, calls that hit no foreign entries answer as without a cache. -/
theorem responses_eq (hdigests : DigestsDistinct schemas calls) :
    ∀ (rest : List (ParseCall Input)) (shared : SharedCache Pack), (∀ call ∈ rest, call ∈ calls) →
      Remembers schemas calls shared → AllHitOwn schemas shared rest →
        responses schemas shared rest = rest.map (ParseCall.uncached schemas) := by
  intro rest
  induction rest with
  | nil => exact fun _ _ _ _ => rfl
  | cons call rest ih =>
    intro shared hrest h hown
    have hcall := hrest call List.mem_cons_self
    rw [responses, List.map_cons, run_eq_uncached schemas hdigests h hcall hown.1,
      ih _ (fun call hmem => hrest call (List.mem_cons_of_mem _ hmem)) (h.after schemas hcall)
        hown.2]

end SharedCache

/-- **Calls on a new shared cache answer as without a cache**, in every run whose calls hit no
entries of validators with other options, and no entries with balance errors that a sink would
miss. -/
theorem calls_transparent (maxSize : Option JsNumber) (calls : List (ParseCall Input))
    (hdigests : DigestsDistinct schemas calls)
    (hown : SharedCache.AllHitOwn schemas (SharedCache.create maxSize : SharedCache Pack) calls) :
    SharedCache.responses schemas (SharedCache.create maxSize) calls =
      calls.map (ParseCall.uncached schemas) :=
  SharedCache.responses_eq schemas hdigests calls _ (fun _ h => h)
    (SharedCache.remembers_create schemas maxSize calls) hown

/-! ### A pack that two validators see differently -/

/-- A pack that requires another and has no modules. -/
def dependentPack : PackDocument Unit where
  resources := []
  generators := []
  upgrades := []
  achievements := []
  transforms := []
  prestigeLayers := []
  id := "main"
  dependencies := some ⟨[⟨"base", none⟩], []⟩
  automations := []
  entities := []
  runtimeEvents := []
  rest := ()

/-- The schemas on that pack: ids that need no normalization, no module to check. -/
def dependentPackSchemas : PackSchemas Unit Unit String where
  contentPackSchema _ := .ok dependentPack
  flagIdSchema id := .ok id
  scriptIdSchema id := .ok id
  systemAutomationTargetIdSchema id := .ok id
  contentIdSchema id := .ok id
  packSlugSchema id := .ok id
  semver := ⟨some, some, some, fun left right => left < right⟩
  validateCrossReferences _ _ := .none
  validateTransformCycles _ := []
  normalizeContentPack pack := ([], pack.id)
  balanceIssues _ _ := []
  packHash _ := "fnv1a-9d2c5680"

/-- A validator that knows no other pack. -/
def unawareOptions : ContentSchemaOptions where
  allowlists := none
  runtimeVersion := none
  knownPacks := none
  runtimeEventCatalogue := none
  activePackIds := none
  balance := none
  warningSink := true
  cache := true

/-- A validator that knows that the other pack requires this one. -/
def awareOptions : ContentSchemaOptions :=
  { unawareOptions with knownPacks := some [⟨"base", "1.0.0", some [⟨"main", none⟩]⟩] }

/-- The warning of the validator that does not know the other pack. -/
def unknownPackWarning : ContentSchemaWarning :=
  .plain "dependencies.unknownPack" "Dependency \"base\" is not present in known pack graph."
    [.name "metadata", .name "dependencies", .name "requires", .index 0, .name "packId"] .warning

theorem dependentPack_digestsDistinct (calls : List (ParseCall Unit)) :
    DigestsDistinct dependentPackSchemas calls := by
  intro call _ call' _ pack pack' hpack hpack' _
  exact Except.ok.inj (hpack.symm.trans hpack')

theorem calls_transparent_repeated :
    SharedCache.responses dependentPackSchemas (SharedCache.create none)
        [⟨unawareOptions, .parse, (), .fin 0⟩, ⟨unawareOptions, .safeParse, (), .fin 1⟩] =
      [⟨.returned ⟨"main", [unknownPackWarning], [], []⟩, [unknownPackWarning]⟩,
        ⟨.success ⟨"main", [unknownPackWarning], [], []⟩, [unknownPackWarning]⟩] := by
  rw [calls_transparent dependentPackSchemas none _ (dependentPack_digestsDistinct _)]
  · decide +kernel
  · refine ⟨fun pack hpack _ hhit => ?_, fun pack hpack _ _ => ⟨?_, fun _ => rfl⟩, trivial⟩
    · cases hhit
    · obtain rfl : dependentPack = pack := Except.ok.inj hpack
      decide +kernel

/-- The second validator rejects the pack, and accepts it on a shared cache. -/
theorem sharedCache_accepts :
    SharedCache.responses dependentPackSchemas (SharedCache.create none)
        [⟨unawareOptions, .parse, (), .fin 0⟩, ⟨awareOptions, .parse, (), .fin 1⟩] =
      [⟨.returned ⟨"main", [unknownPackWarning], [], []⟩, [unknownPackWarning]⟩,
        ⟨.returned ⟨"main", [unknownPackWarning], [], []⟩, [unknownPackWarning]⟩] ∧
      ParseCall.uncached dependentPackSchemas ⟨awareOptions, .parse, (), .fin 1⟩ =
        ⟨.threw (.zod [.custom [.name "metadata", .name "dependencies", .name "requires"]
          "Dependency graph contains a cycle involving this pack."]), []⟩ := by
  decide +kernel

end IdleEngine
