import IdleEngine.Lib.PercentEncoding
import IdleEngine.Production.System

/-!
# The text of accumulator keys

The current form of a key joins a version mark, the generator, the operation and the resource by
bars, with both ids percent-encoded, so that it can be read back whatever the ids are
(`tryParseAccumulatorKeyV2_serialize`). A save is a record of such texts and of older ones;
`restoreRecord` and `exportRecord` are `restoreAccumulators` and `exportAccumulators` on records.
-/

namespace IdleEngine

open PercentEncoding

variable {sh : ContentShape} {options : ProgressionOptions sh}

/-! ### Texts joined by bars -/

/-- `parts.join('|')`. -/
def joinBars (parts : List String) : String :=
  String.ofList (['|'].intercalate (parts.map String.toList))

/-- `text.split('|')`. -/
def splitBars (text : String) : List String :=
  (text.toList.splitOn '|').map String.ofList

theorem splitBars_joinBars {a b c d : String} (ha : '|' ∉ a.toList) (hb : '|' ∉ b.toList)
    (hc : '|' ∉ c.toList) (hd : '|' ∉ d.toList) :
    splitBars (joinBars [a, b, c, d]) = [a, b, c, d] := by
  have hfree : ∀ {s : String}, '|' ∉ s.toList → ∀ x ∈ s.toList, (x == '|') = false := by
    intro s hs x hx
    exact beq_eq_false_iff_ne.mpr fun h => hs (h ▸ hx)
  have hjoin : (joinBars [a, b, c, d]).toList =
      a.toList ++ '|' :: (b.toList ++ '|' :: (c.toList ++ '|' :: d.toList)) := by
    simp [joinBars, List.intercalate, List.intersperse]
  rw [splitBars, hjoin, List.splitOn_eq_splitOnP,
    List.splitOnP_append_cons_of_forall_mem (hfree ha) '|' rfl,
    List.splitOnP_append_cons_of_forall_mem (hfree hb) '|' rfl,
    List.splitOnP_append_cons_of_forall_mem (hfree hc) '|' rfl,
    List.splitOnP_eq_singleton (hfree hd)]
  simp

/-! ### Current keys -/

/-- The operation of that name. -/
def AccumulatorOperation.ofName? (name : String) : Option AccumulatorOperation :=
  if name = "produce" then some .produce else if name = "consume" then some .consume else none

theorem AccumulatorOperation.ofName?_name (operation : AccumulatorOperation) :
    ofName? operation.name = some operation := by
  cases operation
  · rfl
  · rfl

/-- `serializeAccumulatorKeyV2`. -/
def serializeAccumulatorKeyV2 (key : AccumulatorKey) : String :=
  joinBars ["v2", encodeURIComponent key.generatorId, key.operation.name,
    encodeURIComponent key.resourceId]

/-- The parts of a current key, read. -/
def parseAccumulatorKeyParts (parts : List String) : Option AccumulatorKey :=
  match parts with
  | [version, generatorId, operation, resourceId] =>
      if version = "v2" then do
        let operation ← AccumulatorOperation.ofName? operation
        let generatorId ← decodeURIComponent generatorId
        let resourceId ← decodeURIComponent resourceId
        return { generatorId, operation, resourceId }
      else none
  | _ => none

/-- `tryParseAccumulatorKeyV2`. -/
def tryParseAccumulatorKeyV2 (key : String) : Option AccumulatorKey :=
  if "v2|".toList.isPrefixOf key.toList then parseAccumulatorKeyParts (splitBars key) else none

/-- **A current key gives its parts back**, whatever the ids are. -/
theorem tryParseAccumulatorKeyV2_serialize (key : AccumulatorKey) :
    tryParseAccumulatorKeyV2 (serializeAccumulatorKeyV2 key) = some key := by
  have hencoded : ∀ text : String, '|' ∉ (encodeURIComponent text).toList := fun text =>
    notMem_encodeURIComponent (by decide) (by decide) (by decide) text
  have hname : '|' ∉ key.operation.name.toList := by
    cases key.operation
    · decide
    · decide
  have hstart : "v2|".toList.isPrefixOf (serializeAccumulatorKeyV2 key).toList = true := by
    rw [List.isPrefixOf_iff_prefix, serializeAccumulatorKeyV2, joinBars, String.toList_ofList]
    exact ⟨_, by simp [List.intercalate, List.intersperse]; rfl⟩
  rw [tryParseAccumulatorKeyV2, if_pos hstart, serializeAccumulatorKeyV2,
    splitBars_joinBars (by decide) (hencoded _) hname (hencoded _), parseAccumulatorKeyParts,
    if_pos rfl, AccumulatorOperation.ofName?_name, decodeURIComponent_encodeURIComponent,
    decodeURIComponent_encodeURIComponent]
  rfl

/-- **No two accumulators share a current key.** -/
theorem serializeAccumulatorKeyV2_injective : Function.Injective serializeAccumulatorKeyV2 := by
  intro key other h
  have hread := tryParseAccumulatorKeyV2_serialize key
  rw [h, tryParseAccumulatorKeyV2_serialize] at hread
  exact (Option.some.inj hread).symm

/-! ### Records -/

/-- The text of a key in a record. -/
def SerializedAccumulatorKey.write : SerializedAccumulatorKey → String
  | .v2 key => serializeAccumulatorKeyV2 key
  | .text key => key

/-- A key of a record, read. -/
def readAccumulatorKey (key : String) : SerializedAccumulatorKey :=
  (tryParseAccumulatorKeyV2 key).elim (.text key) .v2

/-- The entries of `state.accumulators`. -/
abbrev AccumulatorRecord := List (String × JsNumber)

namespace ProductionAccumulators

/-- `exportAccumulators`, with the keys as texts. -/
def exportRecord (a : ProductionAccumulators options) : AccumulatorRecord :=
  a.exportAccumulators.map fun entry => (entry.1.write, entry.2)

/-- `restoreAccumulators`, with the keys as texts. -/
def restoreRecord (record : AccumulatorRecord) : ProductionAccumulators options :=
  restoreAccumulators (record.map fun entry => (readAccumulatorKey entry.1, entry.2))

end ProductionAccumulators

end IdleEngine
