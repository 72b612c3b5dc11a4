import IdleEngine.JsValue
import IdleEngine.Lib.Kahn

/-!
# Compiling a workspace of content packs

A pack names the packs that it requires. `compileWorkspacePacks` sorts the packs of a workspace so
that every pack comes behind the packs it requires (`topologicallySortDocuments`), compiles them in
this order, and fails a pack without compiling it when something it requires is missing or has
failed. What the sort leaves over is on a cycle or behind one, and fails at the end.

Slugs are sorted by `localeCompare`, which is a parameter: nothing below depends on it. So is what
compiling a single document comes to.
-/

namespace IdleEngine

/-- `ContentDocument`, as far as the compilation reads it. -/
structure ContentDocument where
  packSlug : String
  document : JsValue

/-- `PackArtifactResult`. -/
inductive PackArtifactResult (Pack : Type)
  | compiled (document : ContentDocument) (normalizedPack : Pack)
  | failed (document : ContentDocument) (error : String)

namespace PackArtifactResult

variable {Pack : Type}

/-- The document of a result. -/
def document : PackArtifactResult Pack → ContentDocument
  | compiled document _ => document
  | failed document _ => document

/-- `status === 'compiled'`. -/
def isCompiled : PackArtifactResult Pack → Bool
  | compiled _ _ => true
  | failed _ _ => false

end PackArtifactResult

/-! ### The requirements -/

/-- `extractRequiredDependencies`. -/
def extractRequiredDependencies (document : ContentDocument) : List String :=
  let metadata := document.document.get "metadata"
  if metadata.isRecord then
    let dependencies := metadata.get "dependencies"
    if dependencies.isRecord then
      ((dependencies.get "requires").array?.getD []).filterMap fun entry =>
        (entry.get "packId").string?.filter fun packId => packId ≠ ""
    else []
  else []

/-- `DependencyMap`. -/
structure DependencyMap where
  requires : OrderedMap String (List String)
  missing : OrderedMap String (List String)

/-- A value is added to the set of a key; a key without one gets a new set. -/
def addToSetOf (sets : OrderedMap String (List String)) (key value : String) :
    OrderedMap String (List String) :=
  let values := (sets.get? key).getD []
  sets.set key (if value ∈ values then values else values ++ [value])

/-- What `buildDependencyMap` does with one requirement of a pack. -/
def DependencyMap.add (documents : OrderedMap String ContentDocument) (slug : String)
    (dependencies : DependencyMap) (dependency : String) : DependencyMap :=
  if (documents.get? dependency).isSome then
    { dependencies with requires := addToSetOf dependencies.requires dependency slug }
  else { dependencies with missing := addToSetOf dependencies.missing slug dependency }

/-- `buildDependencyMap`. -/
def buildDependencyMap (documents : OrderedMap String ContentDocument) : DependencyMap :=
  documents.entries.foldl
    (fun dependencies entry =>
      (extractRequiredDependencies entry.2).foldl (DependencyMap.add documents entry.1)
        dependencies)
    ⟨OrderedMap.empty, OrderedMap.empty⟩

/-! ### The sort -/

/-- `TopologyResult`. -/
structure TopologyResult where
  ordered : List String
  cycleSlugs : List String

/-- `Array.prototype.sort` with `compareSlugs`. -/
def sortSlugs (compareSlugs : String → String → ℤ) (slugs : List String) : List String :=
  slugs.mergeSort fun left right => decide (compareSlugs left right ≤ 0)

/-- One more dependency of each of the dependants. -/
def countDependants (inDegree : OrderedMap String ℤ) (dependants : List String) :
    OrderedMap String ℤ :=
  dependants.foldl (fun inDegree slug => inDegree.set slug ((inDegree.get? slug).getD 0 + 1))
    inDegree

/-- `topologicallySortDocuments`. Every pack is put in order at most once. -/
def topologicallySortDocuments (compareSlugs : String → String → ℤ)
    (documents : OrderedMap String ContentDocument) (dependencyMap : DependencyMap) :
    TopologyResult :=
  let inDegree := documents.mapValues fun _ => (0 : ℤ)
  let adjacency := documents.mapValues fun _ => ([] : List String)
  let adjacency := dependencyMap.requires.entries.foldl
    (fun adjacency entry => adjacency.set entry.1 entry.2) adjacency
  let inDegree := dependencyMap.requires.entries.foldl
    (fun inDegree entry => countDependants inDegree entry.2) inDegree
  let zeroInDegree := (inDegree.entries.filter fun entry => decide (entry.2 = 0)).map Prod.fst
  let sorted := Kahn.loop (sortSlugs compareSlugs) (fun slug => (adjacency.get? slug).getD [])
    documents.entries.length
    { zeroInDegree := sortSlugs compareSlugs zeroInDegree, ordered := [], inDegree }
  { ordered := sorted.ordered
    cycleSlugs := (sorted.inDegree.entries.filter fun entry => decide (0 < entry.2)).map Prod.fst }

/-! ### The compilation -/

section Compile

variable {Pack : Type} (parseContentPack : ContentDocument → Except String Pack)

/-- `compileContentPack`: the artifacts of a pack, or the error of its schema. -/
def compileContentPack (document : ContentDocument) : PackArtifactResult Pack :=
  match parseContentPack document with
  | .ok normalizedPack => .compiled document normalizedPack
  | .error error => .failed document error

/-- `getDependencyFailureMessage`. -/
def getDependencyFailureMessage (slug : String) (document : ContentDocument)
    (dependencyMap : DependencyMap) (failed : List String) : Option String :=
  let requiredDependencies := extractRequiredDependencies document
  let missingDependencies := (dependencyMap.missing.get? slug).getD []
  if missingDependencies ≠ [] then
    some ("Pack \"" ++ slug ++ "\" requires missing dependencies: " ++
      ", ".intercalate missingDependencies)
  else
    let failedDependencies := requiredDependencies.filter fun dependency => dependency ∈ failed
    if failedDependencies ≠ [] then
      some ("Pack \"" ++ slug ++ "\" requires dependencies that failed to compile: " ++
        ", ".intercalate failedDependencies)
    else none

/-- The results and the slugs that failed, in `compileTopologicallySortedPacks`. -/
structure CompileProgress (Pack : Type) where
  results : List (PackArtifactResult Pack)
  failed : List String

/-- The body of the loop of `compileTopologicallySortedPacks`. -/
def compileNext (documentsBySlug : OrderedMap String ContentDocument)
    (dependencyMap : DependencyMap) (progress : CompileProgress Pack) (slug : String) :
    CompileProgress Pack :=
  match documentsBySlug.get? slug with
  | none => progress
  | some document =>
      match getDependencyFailureMessage slug document dependencyMap progress.failed with
      | some dependencyFailure =>
          { results := progress.results ++ [.failed document dependencyFailure]
            failed := progress.failed ++ [slug] }
      | none =>
          let compileResult := compileContentPack parseContentPack document
          { results := progress.results ++ [compileResult]
            failed :=
              if compileResult.isCompiled then progress.failed else progress.failed ++ [slug] }

/-- `compileTopologicallySortedPacks`. -/
def compileTopologicallySortedPacks (orderedSlugs : List String)
    (documentsBySlug : OrderedMap String ContentDocument) (dependencyMap : DependencyMap) :
    CompileProgress Pack :=
  orderedSlugs.foldl (compileNext parseContentPack documentsBySlug dependencyMap) ⟨[], []⟩

/-- `createCycleErrorMessage`. -/
def createCycleErrorMessage (slugs : List String) : String :=
  "Dependency cycle detected involving: " ++ ", ".intercalate slugs

/-- `appendCycleFailures`. -/
def appendCycleFailures (results : List (PackArtifactResult Pack))
    (documentsBySlug : OrderedMap String ContentDocument) (cycleSlugs : List String)
    (cycleMessage : String) : List (PackArtifactResult Pack) :=
  results ++ cycleSlugs.filterMap fun slug =>
    (documentsBySlug.get? slug).map fun document => .failed document cycleMessage

/-- The packs of the result of `compileWorkspacePacks`, for the documents that were discovered. -/
def compileWorkspacePacks (compareSlugs : String → String → ℤ) (documents : List ContentDocument) :
    List (PackArtifactResult Pack) :=
  let documentsBySlug : OrderedMap String ContentDocument :=
    documents.foldl (fun bySlug entry => bySlug.set entry.packSlug entry) OrderedMap.empty
  let dependencyMap := buildDependencyMap documentsBySlug
  let topo := topologicallySortDocuments compareSlugs documentsBySlug dependencyMap
  let compiled := compileTopologicallySortedPacks parseContentPack topo.ordered documentsBySlug
    dependencyMap
  let remainingCycleSlugs := sortSlugs compareSlugs
    (topo.cycleSlugs.filter fun slug => slug ∉ compiled.failed)
  if remainingCycleSlugs ≠ [] then
    appendCycleFailures compiled.results documentsBySlug remainingCycleSlugs
      (createCycleErrorMessage remainingCycleSlugs)
  else compiled.results

end Compile

end IdleEngine
