import IdleEngine.Content.Validator
import IdleEngine.Lib.RecentUses
import IdleEngine.Lib.Stateful

/-!
# The validation cache

`createValidationCache` keeps the results of validations under the digest of the parsed pack and
evicts the least recently used one. The digest says nothing about the options of the validator, and
a hit replays the warnings of the run that stored the result.

A lookup keeps every entry (`ValidationCache.get?_get`), and an entry found after `set` is the new
one or was there before (`ValidationCache.get?_set`).
-/

namespace IdleEngine

open List OrderedMap

variable {Input Body Pack : Type}

/-! ### The cache -/

/-- `CachedValidationResult`. -/
structure CachedValidationResult (Pack : Type) extends ContentPackValidationResult Pack where
  timestamp : JsNumber
  deriving DecidableEq

/-- `cachedResultToValidationResult`. -/
def cachedResultToValidationResult (cached : CachedValidationResult Pack) :
    ContentPackValidationResult Pack := cached.toContentPackValidationResult

/-- `validationResultToCachedResult`. -/
def validationResultToCachedResult (result : ContentPackValidationResult Pack) (now : JsNumber) :
    CachedValidationResult Pack := ⟨result, now⟩

/-- `ValidationCache`: the entries from the least to the most recently used one. -/
structure ValidationCache (Pack : Type) where
  maxSize : JsNumber
  cache : OrderedMap String (CachedValidationResult Pack)

/-- `Math.max(0, value)`. -/
def JsNumber.atLeastZero : JsNumber → JsNumber
  | .fin value => .fin (max 0 value)
  | .posInf => .posInf
  | .negInf => .fin 0
  | .nan => .nan

/-- `createValidationCache`. -/
def createValidationCache (maxSize : Option JsNumber) : ValidationCache Pack :=
  ⟨(maxSize.getD (.fin 100)).atLeastZero, OrderedMap.empty⟩

/-- The loop of `set` that deletes the oldest entries while the cache is full. -/
def evictEntries (maxSize : JsNumber) :
    List (String × CachedValidationResult Pack) → List (String × CachedValidationResult Pack)
  | [] => []
  | entry :: entries =>
    if maxSize.le (.fin ((entries.length + 1 : ℕ) : ℚ)) then evictEntries maxSize entries
    else entry :: entries

theorem evictEntries_suffix (maxSize : JsNumber)
    (entries : List (String × CachedValidationResult Pack)) :
    List.IsSuffix (evictEntries maxSize entries) entries := by
  induction entries with
  | nil => exact suffix_refl _
  | cons entry entries ih =>
    rw [evictEntries]
    split
    · exact ih.trans (suffix_cons _ _)
    · exact suffix_refl _

namespace ValidationCache

/-- `get`: an entry that is found becomes the most recently used one. -/
def get (cache : ValidationCache Pack) (key : String) :
    Option (CachedValidationResult Pack) × ValidationCache Pack :=
  match cache.cache.get? key with
  | some entry => (some entry, { cache with cache := (cache.cache.erase key).set key entry })
  | none => (none, cache)

/-- The entries that are left when there is room for one more. -/
def evicted (maxSize : JsNumber) (cache : OrderedMap String (CachedValidationResult Pack)) :
    OrderedMap String (CachedValidationResult Pack) where
  entries := evictEntries maxSize cache.entries
  nodup := cache.nodup.sublist ((evictEntries_suffix _ _).sublist.map _)

/-- `set`. -/
def set (cache : ValidationCache Pack) (key : String) (result : CachedValidationResult Pack) :
    ValidationCache Pack :=
  if cache.maxSize = .fin 0 then cache
  else { cache with cache := (evicted cache.maxSize (cache.cache.erase key)).set key result }

/-- A lookup changes no entry. -/
theorem get?_get (cache : ValidationCache Pack) (key other : String) :
    (cache.get key).2.cache.get? other = cache.cache.get? other := by
  rw [get]
  split
  · next entry h =>
    rw [get?_set, get?_erase]
    split
    · next heq => rw [← heq, h]
    · rfl
  · rfl

/-- What is found was there. -/
theorem get_fst (cache : ValidationCache Pack) (key : String) :
    (cache.get key).1 = cache.cache.get? key := by
  rw [get]
  split
  · next h => exact h.symm
  · next h => exact h.symm

theorem get?_set {cache : ValidationCache Pack} {key other : String}
    {result cached : CachedValidationResult Pack}
    (h : (cache.set key result).cache.get? other = some cached) :
    other = key ∧ cached = result ∨ cache.cache.get? other = some cached := by
  rw [set] at h
  split at h
  · exact .inr h
  · rw [OrderedMap.get?_set] at h
    split at h
    · next heq => exact .inl ⟨heq.symm, (Option.some.inj h).symm⟩
    · -- what was not evicted was there
      rw [get?_eq_some_iff] at h
      have hmem := (evictEntries_suffix _ _).subset h
      rw [← get?_eq_some_iff, get?_erase] at hmem
      split at hmem
      · cases hmem
      · exact .inr hmem

/-! ### Least recently used -/

theorem evictEntries_reverse (size : ℚ) (entries : List (String × CachedValidationResult Pack)) :
    (evictEntries (.fin size) entries).reverse = entries.reverse.take (⌈size⌉₊ - 1) := by
  induction entries with
  | nil => rw [evictEntries, reverse_nil, take_nil]
  | cons entry entries ih =>
    have hceil := Nat.ceil_le (a := size) (n := entries.length + 1)
    rw [evictEntries, JsNumber.le]
    split
    · next hfull =>
      have hle := hceil.mpr (of_decide_eq_true hfull)
      rw [ih, reverse_cons, take_append_of_le_length (by rw [length_reverse]; omega)]
    · next hfree =>
      have hlt := mt hceil.mp (mt decide_eq_true hfree)
      rw [take_of_length_le (by rw [length_reverse, length_cons]; omega)]

/-- A call of the cache. -/
inductive Call (Pack : Type)
  | get (key : String)
  | set (key : String) (result : CachedValidationResult Pack)

/-- The cache after a call, and the entry that the call found or set. -/
def call (cache : ValidationCache Pack) :
    Call Pack → ValidationCache Pack × Option (String × CachedValidationResult Pack)
  | .get key => ((cache.get key).2, (cache.get key).1.map fun found => (key, found))
  | .set key result => (cache.set key result, some (key, result))

/-- The cache after some calls, and the entries that were used, from the last one on. -/
def run (cache : ValidationCache Pack) (uses : List (String × CachedValidationResult Pack)) :
    List (Call Pack) → ValidationCache Pack × List (String × CachedValidationResult Pack)
  | [] => (cache, uses)
  | call :: calls => (cache.call call).1.run ((cache.call call).2.toList ++ uses) calls

/-- A cache of a finite size with the last used entries, as many as there is room for. -/
structure KeepsLatest (size : ℚ) (cache : ValidationCache Pack)
    (uses : List (String × CachedValidationResult Pack)) : Prop where
  maxSize_eq : cache.maxSize = .fin size
  entries : cache.cache.entries.reverse = (RecentUses.latest uses).take ⌈size⌉₊

variable {size : ℚ} {cache : ValidationCache Pack}
  {uses : List (String × CachedValidationResult Pack)}

/-- Using an entry, when there is room for one at all. -/
theorem KeepsLatest.use (h : cache.KeepsLatest size uses) (hpos : 0 < size) (key : String)
    (result : CachedValidationResult Pack) :
    ((evicted cache.maxSize (cache.cache.erase key)).set key result).entries.reverse =
      (RecentUses.latest ((key, result) :: uses)).take ⌈size⌉₊ := by
  have hnew : key ∉ (evicted cache.maxSize (cache.cache.erase key)).entries.map Prod.fst := by
    intro hmem
    obtain ⟨entry, hentry, rfl⟩ := mem_map.mp hmem
    exact of_decide_eq_true (mem_filter.mp ((evictEntries_suffix _ _).subset hentry)).2 rfl
  obtain ⟨places, hplaces⟩ : ∃ places, ⌈size⌉₊ = places + 1 :=
    Nat.exists_eq_succ_of_ne_zero (Nat.ceil_pos.mpr hpos).ne'
  change (setEntries key result _).reverse = _
  rw [setEntries_of_notMem hnew, reverse_append, reverse_singleton, singleton_append,
    evicted, h.maxSize_eq, evictEntries_reverse, erase, ← filter_reverse, h.entries,
    hplaces, Nat.add_sub_cancel, RecentUses.take_filter_take key (RecentUses.nodup_latest uses)]
  rfl

/-- **Step lemma.** -/
theorem KeepsLatest.call (h : cache.KeepsLatest size uses) (hsize : 0 ≤ size) (call : Call Pack) :
    (cache.call call).1.KeepsLatest size ((cache.call call).2.toList ++ uses) := by
  rcases call with key | ⟨key, result⟩
  · rw [ValidationCache.call, get]
    rcases hfound : cache.cache.get? key with _ | found
    · exact h
    · -- the entry that is found leaves its place, so nothing is evicted
      have hmem := get?_eq_some_iff.mp hfound
      have hlength := congrArg length h.entries
      rw [length_reverse, length_take] at hlength
      have hless : (cache.cache.erase key).entries.length < cache.cache.entries.length :=
        length_filter_lt_length_iff_exists.mpr ⟨_, hmem, by simp⟩
      have hroom : evictEntries cache.maxSize (cache.cache.erase key).entries =
          (cache.cache.erase key).entries := by
        refine reverse_injective ?_
        rw [h.maxSize_eq, evictEntries_reverse, take_of_length_le (by rw [length_reverse]; omega)]
      have huse := h.use (Nat.ceil_pos.mp (by omega)) key found
      simp only [evicted, hroom] at huse
      exact ⟨h.maxSize_eq, huse⟩
  · rw [ValidationCache.call, set]
    split
    · next hzero =>
      obtain rfl := JsNumber.fin.inj (h.maxSize_eq.symm.trans hzero)
      refine ⟨h.maxSize_eq, h.entries.trans ?_⟩
      rw [Nat.ceil_zero, take_zero, take_zero]
    · next hne =>
      have hpos : 0 < size := hsize.lt_of_ne fun hzero => hne (hzero ▸ h.maxSize_eq)
      exact ⟨h.maxSize_eq, h.use hpos key result⟩

theorem KeepsLatest.run (h : cache.KeepsLatest size uses) (hsize : 0 ≤ size) (calls : List (Call Pack)) :
    (cache.run uses calls).1.KeepsLatest size (cache.run uses calls).2 := by
  induction calls generalizing cache uses with
  | nil => exact h
  | cons call calls ih => exact ih (h.call hsize call)

/-- **The cache keeps what was used last**: after any calls of a new cache its entries are, from the
most recent one on, those that were found or set last, each key once, and as many as the size of the
cache, rounded up, allows. -/
theorem run_keepsLatest (size : ℚ) (calls : List (Call Pack)) :
    let state := (createValidationCache (some (.fin size)) : ValidationCache Pack).run [] calls
    state.1.cache.entries.reverse = (RecentUses.latest state.2).take ⌈max 0 size⌉₊ := by
  have hnew : (createValidationCache (some (.fin size)) : ValidationCache Pack).KeepsLatest
      (max 0 size) [] := ⟨rfl, take_nil.symm⟩
  exact (hnew.run (le_max_left 0 size) calls).entries

end ValidationCache

/-! ### A call -/

/-- What a call comes to, and what the sink of the options receives. -/
structure ParseRun (Pack : Type) where
  result : Except ValidationError (ContentPackValidationResult Pack)
  sent : List ContentSchemaWarning

/-- `parse` and `safeParse`. -/
inductive ParseMethod
  | parse
  | safeParse
  deriving DecidableEq, Repr

/-- What the caller gets: `parse` returns or throws, `safeParse` says which. -/
inductive ParseAnswer (Pack : Type)
  | returned (result : ContentPackValidationResult Pack)
  | threw (error : ValidationError)
  | success (data : ContentPackValidationResult Pack)
  | failure (error : ValidationError)
  deriving DecidableEq

/-- The answer of a method. -/
def ParseMethod.answer (method : ParseMethod)
    (result : Except ValidationError (ContentPackValidationResult Pack)) : ParseAnswer Pack :=
  match method, result with
  | .parse, .ok result => .returned result
  | .parse, .error error => .threw error
  | .safeParse, .ok result => .success result
  | .safeParse, .error error => .failure error

variable (schemas : PackSchemas Input Body Pack)

/-- A full validation, from no warnings on. -/
def validateFully (pack : PackDocument Body) (options : ContentSchemaOptions) : ParseRun Pack :=
  let run := runFullValidation schemas pack options ⟨[], []⟩
  { result := (Stateful.outcome run).map Prod.fst
    sent := (Stateful.final run).sent }

/-- The key of a parsed pack. -/
def packCacheKey (pack : PackDocument Body) : String :=
  digestToCacheKey (schemas.computePackDigest pack)

/-- A cache hit: the warnings are replayed, the balance errors are not. -/
def replayCached (options : ContentSchemaOptions) (cached : CachedValidationResult Pack) :
    ParseRun Pack where
  result := .ok (cachedResultToValidationResult cached)
  sent := if options.warningSink then cached.warnings ++ cached.balanceWarnings else []

/-- A cache miss: the result of the validation is stored, if it has one. -/
def storeResult (cacheKey : String) (now : JsNumber)
    (result : Except ValidationError (ContentPackValidationResult Pack))
    (cache : ValidationCache Pack) : ValidationCache Pack :=
  match result with
  | .ok result => cache.set cacheKey (validationResultToCachedResult result now)
  | .error _ => cache

/-- The second phase of `parse` and `safeParse`. -/
def validateWithCache (options : ContentSchemaOptions) (now : JsNumber) (pack : PackDocument Body)
    (cache : ValidationCache Pack) : ParseRun Pack × ValidationCache Pack :=
  let found := cache.get (packCacheKey schemas pack)
  match found.1 with
  | some cached => (replayCached options cached, found.2)
  | none =>
    let run := validateFully schemas pack options
    (run, storeResult (packCacheKey schemas pack) now run.result found.2)

/-- A call of a validator: its options, the method, the input and the time. -/
structure ParseCall (Input : Type) where
  options : ContentSchemaOptions
  method : ParseMethod
  input : Input
  now : JsNumber

/-- What one call lets the caller and the sink see. -/
structure ParseResponse (Pack : Type) where
  answer : ParseAnswer Pack
  sent : List ContentSchemaWarning
  deriving DecidableEq

namespace ParseCall

variable (call : ParseCall Input)

def respond (run : ParseRun Pack) : ParseResponse Pack := ⟨call.method.answer run.result, run.sent⟩

/-- `parse` and `safeParse`, on the shared cache. -/
def run (cache : ValidationCache Pack) : ParseResponse Pack × ValidationCache Pack :=
  match schemas.contentPackSchema call.input with
  | .error issues => (call.respond ⟨.error (.zod issues), []⟩, cache)
  | .ok pack =>
    if call.options.cache then
      let phase := validateWithCache schemas call.options call.now pack cache
      (call.respond phase.1, phase.2)
    else (call.respond (validateFully schemas pack call.options), cache)

/-- The call on a validator without a cache. -/
def uncached : ParseResponse Pack :=
  match schemas.contentPackSchema call.input with
  | .error issues => call.respond ⟨.error (.zod issues), []⟩
  | .ok pack => call.respond (validateFully schemas pack call.options)

end ParseCall

end IdleEngine
