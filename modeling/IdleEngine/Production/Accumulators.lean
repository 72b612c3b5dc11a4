import IdleEngine.Progression.UpgradeEffects

/-!
# Production accumulators

Production below a threshold is kept as a fraction for each generator, operation and resource.
A save names such an accumulator by a key of which there are two forms: the current one, which
gives the three parts back, and an older text in which the parts are joined by colons and which
may be read in several ways. An old key that cannot be read is kept as it is until production
meets its text.
-/

namespace IdleEngine

variable {sh : ContentShape}

inductive AccumulatorOperation
  | produce
  | consume
  deriving DecidableEq, Repr

def AccumulatorOperation.name : AccumulatorOperation → String
  | produce => "produce"
  | consume => "consume"

/-- A generator, what it does, and the resource it does it to. -/
structure AccumulatorKey where
  generatorId : String
  operation : AccumulatorOperation
  resourceId : String
  deriving DecidableEq, Repr

/-- A key of a save: one that `tryParseAccumulatorKeyV2` reads, or any other text. -/
inductive SerializedAccumulatorKey
  | v2 (key : AccumulatorKey)
  | text (key : String)
  deriving DecidableEq, Repr

/-- `SerializedProductionAccumulators`: the entries of the record in order. -/
abbrev SerializedProductionAccumulators := List (SerializedAccumulatorKey × JsNumber)

/-! ### Old keys -/

/-- Every place at which a delimiter splits a text, from the left; `before` is what has been
passed, in reverse. -/
def splitsAt (delimiter before : List Char) : List Char → List (String × String)
  | [] => []
  | c :: rest =>
      let later := splitsAt delimiter (c :: before) rest
      if delimiter.isPrefixOf (c :: rest) then
        (String.ofList before.reverse, String.ofList ((c :: rest).drop delimiter.length)) :: later
      else later

/-- The candidates of `tryParseAccumulatorKeyLegacy`. -/
def legacyCandidates (key : String) : List AccumulatorKey :=
  [AccumulatorOperation.produce, .consume].flatMap fun operation =>
    ((splitsAt (":" ++ operation.name ++ ":").toList [] key.toList).filter fun split =>
      split.1 != "" && split.2 != "").map fun split =>
        { generatorId := split.1, operation, resourceId := split.2 }

/-- `tryParseAccumulatorKeyLegacy`: the one candidate with a known resource and generator, or else
the one with a known resource. -/
def tryParseAccumulatorKeyLegacy (options : ProgressionOptions sh) (key : String) :
    Option AccumulatorKey :=
  let withKnownResource := (legacyCandidates key).filter fun candidate =>
    (indexOfId (fun i => (options.content.resources i).id) candidate.resourceId).isSome
  let withKnownGenerator := withKnownResource.filter fun candidate =>
    (indexOfId (fun i => (options.content.generators i).id) candidate.generatorId).isSome
  match withKnownGenerator, withKnownResource with
  | [candidate], _ => some candidate
  | _, [candidate] => some candidate
  | _, _ => none

/-! ### Accumulators -/

/-- The accumulators of a production system. The old keys are those that cannot be read. -/
structure ProductionAccumulators (options : ProgressionOptions sh) where
  accumulators : OrderedMap AccumulatorKey ℚ
  legacyAccumulators : OrderedMap String ℚ
  legacy_unread : ∀ key, (legacyAccumulators.get? key).isSome →
    tryParseAccumulatorKeyLegacy options key = none

namespace ProductionAccumulators

variable {options : ProgressionOptions sh}

def empty : ProductionAccumulators options :=
  { accumulators := OrderedMap.empty, legacyAccumulators := OrderedMap.empty
    legacy_unread := fun _ h => by cases h }

variable (a : ProductionAccumulators options)

/-- What an accumulator holds; one that is not there counts as zero. -/
def value (key : AccumulatorKey) : ℚ := (a.accumulators.get? key).getD 0

/-- `setAccumulatorValueFromRestore`. -/
def setValue (key : AccumulatorKey) (value : ℚ) : ProductionAccumulators options :=
  { a with accumulators := a.accumulators.set key value }

/-- An old key that cannot be read, set. -/
def setLegacy (key : String) (value : ℚ) (h : tryParseAccumulatorKeyLegacy options key = none) :
    ProductionAccumulators options :=
  { a with
    legacyAccumulators := a.legacyAccumulators.set key value
    legacy_unread := by
      intro key' hkey'
      rw [OrderedMap.get?_set] at hkey'
      by_cases hk : key = key'
      · rwa [← hk]
      · rw [if_neg hk] at hkey'
        exact a.legacy_unread key' hkey' }

/-- `exportAccumulators`: zeros are left out. -/
def exportAccumulators : SerializedProductionAccumulators :=
  (a.accumulators.entries.filter fun entry => entry.2 ≠ 0).map
      (fun entry => (.v2 entry.1, .fin entry.2)) ++
    (a.legacyAccumulators.entries.filter fun entry => entry.2 ≠ 0).map
      (fun entry => (.text entry.1, .fin entry.2))

/-- One entry of a save with a number, restored; an accumulator that is set already is not set
again by an old key. -/
def restoreValue (key : SerializedAccumulatorKey) (value : ℚ) : ProductionAccumulators options :=
  match key with
  | .v2 key => a.setValue key value
  | .text key =>
      match hread : tryParseAccumulatorKeyLegacy options key with
      | none => a.setLegacy key value hread
      | some parsed =>
          if (a.accumulators.get? parsed).isSome then a else a.setValue parsed value

/-- One entry of a save, restored. -/
def restoreEntry (entry : SerializedAccumulatorKey × JsNumber) : ProductionAccumulators options :=
  match entry.2.finite? with
  | some value => a.restoreValue entry.1 value
  | none => a

/-- `restoreAccumulators`. -/
def restoreAccumulators (saved : SerializedProductionAccumulators) :
    ProductionAccumulators options :=
  saved.foldl restoreEntry empty

/-! ### Round trip -/

end ProductionAccumulators

end IdleEngine
