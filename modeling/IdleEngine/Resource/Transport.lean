import IdleEngine.Resource.Coherence

/-!
# Publish transports

A transport carries the rows a publish lists as dirty to a client that keeps its own copy. The
buffers a transport is written to are leased from a pool that refuses more entries than it is
configured for; a lease is read before it is released, so the model hands over the values.

`transports_lossless` is the result: a client that copied the first snapshot and overwrites the
listed indices from every later transport always holds the snapshot of the last publish, apart
from the tick delta.
-/

namespace IdleEngine

open Overwrite Outcome

variable {n : ℕ} {E : Type}

/-- The kinds of array the pool hands out. -/
inductive TransportArrayKind
  | float64Array
  | uint8Array
  | uint32Array
  deriving DecidableEq, Repr

/-- The constructor's name, as messages print it. -/
def TransportArrayKind.name : TransportArrayKind → String
  | .float64Array => "Float64Array"
  | .uint8Array => "Uint8Array"
  | .uint32Array => "Uint32Array"

/-- The buffer pool: the most entries it leases at once, when it is bounded. -/
structure TransportBufferPool where
  maxDirtyCount : Option ℕ

/-- `acquire`: the only failure is a length beyond the bound. -/
def TransportBufferPool.acquire (pool : TransportBufferPool) (kind : TransportArrayKind)
    (length : ℕ) : Except String Unit :=
  if length = 0 then .ok ()
  else
    match pool.maxDirtyCount with
    | none => .ok ()
    | some maxDirtyCount =>
        if length > maxDirtyCount then
          .error (s!"TransportBufferPool exhausted for {kind.name} " ++
            s!"(requested {length}, max {maxDirtyCount}).")
        else .ok ()

/-- The arrays of `COMPONENT_SPECS`, in order. -/
def componentSpecs : List TransportArrayKind :=
  [.float64Array, .float64Array, .float64Array, .float64Array, .float64Array, .float64Array,
    .uint8Array, .float64Array]

/-- The options of a build. The event bus stands for what building its frame comes to. -/
structure TransportBuildOptions (E : Type) where
  tick : Option ℕ
  eventBus : Option (Except String E)

/-- A transport: the dirty indices and, entry by entry, the components at them. -/
structure ResourcePublishTransport (n : ℕ) (E : Type) where
  ids : Fin n → String
  dirtyIndices : List (Fin n)
  amounts : List ℚ
  capacities : List (WithTop ℚ)
  incomePerSecond : List ℚ
  expensePerSecond : List ℚ
  netPerSecond : List ℚ
  tickDelta : List ℚ
  flags : List ResourceFlags
  dirtyTolerance : List ℚ
  events : Option E

/-- The event frame of a transport. -/
def buildEventFrame (eventBus : Option (Except String E)) : Except String (Option E) :=
  match eventBus with
  | none => .ok none
  | some frame => frame.map some

/-- `buildEmptyTransport`. -/
def buildEmptyTransport (ids : Fin n → String) (eventBus : Option (Except String E)) :
    Except String (ResourcePublishTransport n E) := do
  let events ← buildEventFrame eventBus
  .ok
    { ids, dirtyIndices := [], amounts := [], capacities := [], incomePerSecond := []
      expensePerSecond := [], netPerSecond := [], tickDelta := [], flags := []
      dirtyTolerance := [], events }

/-- `populateComponentBuffers`. -/
def populateComponentBuffers (ids : Fin n → String) (snapshot : PublishBuffer n)
    (events : Option E) : ResourcePublishTransport n E :=
  { ids
    dirtyIndices := snapshot.dirtyIndices
    amounts := snapshot.dirtyIndices.map fun i => (snapshot.rows i).amount
    capacities := snapshot.dirtyIndices.map fun i => (snapshot.rows i).capacity
    incomePerSecond := snapshot.dirtyIndices.map fun i => (snapshot.rows i).incomePerSecond
    expensePerSecond := snapshot.dirtyIndices.map fun i => (snapshot.rows i).expensePerSecond
    netPerSecond := snapshot.dirtyIndices.map fun i => (snapshot.rows i).netPerSecond
    tickDelta := snapshot.dirtyIndices.map fun i => (snapshot.rows i).tickDelta
    flags := snapshot.dirtyIndices.map fun i => (snapshot.rows i).flags.clearDirty
    dirtyTolerance := snapshot.dirtyIndices.map fun i => (snapshot.rows i).dirtyTolerance
    events }

/-- `buildResourcePublishTransport`. -/
def buildResourcePublishTransport (ids : Fin n → String) (snapshot : PublishBuffer n)
    (pool : TransportBufferPool) (options : TransportBuildOptions E) :
    Except String (ResourcePublishTransport n E) := do
  let dirtyCount := snapshot.dirtyIndices.length
  if options.eventBus.isSome && options.tick.isNone then
    .error "buildResourcePublishTransport requires a tick when eventBus is provided."
  else if dirtyCount = 0 then buildEmptyTransport ids options.eventBus
  else do
    pool.acquire .uint32Array dirtyCount
    componentSpecs.forM fun kind => pool.acquire kind dirtyCount
    let events ← buildEventFrame options.eventBus
    return populateComponentBuffers ids snapshot events

/-- `createResourcePublishTransport`: publish, then build a transport from the snapshot. -/
def createResourcePublishTransport (s : ResourceState n) (pool : TransportBufferPool)
    (options : TransportBuildOptions E) :
    Except String (ResourceState n × ResourcePublishTransport n E) := do
  let s := s.createPublishSnapshot
  let transport ← buildResourcePublishTransport s.ids s.active pool options
  return (s, transport)

/-! ### Clients -/

/-- The row a transport carries at a position. -/
def ResourcePublishTransport.row? (t : ResourcePublishTransport n E) (k : ℕ) :
    Option ResourceRow := do
  let amount ← t.amounts[k]?
  let capacity ← t.capacities[k]?
  let incomePerSecond ← t.incomePerSecond[k]?
  let expensePerSecond ← t.expensePerSecond[k]?
  let netPerSecond ← t.netPerSecond[k]?
  let tickDelta ← t.tickDelta[k]?
  let flags ← t.flags[k]?
  let dirtyTolerance ← t.dirtyTolerance[k]?
  return { amount, capacity, incomePerSecond, expensePerSecond, netPerSecond, tickDelta, flags
           dirtyTolerance }

/-- The changes a client reads from a transport: each listed index with its row. -/
def ResourcePublishTransport.changes (t : ResourcePublishTransport n E) :
    List (Fin n × ResourceRow) :=
  t.dirtyIndices.zipIdx.filterMap fun (i, k) => (t.row? k).map (i, ·)

/-- A client after a transport: the listed indices overwritten, one after the other. -/
def receive (client : Fin n → ResourceRow) (t : ResourcePublishTransport n E) :
    Fin n → ResourceRow :=
  patch client t.changes

/-- A tick of the host: operations on the store, then a transport. -/
structure PublishTick (n : ℕ) (E : Type) where
  calls : List (ResourceCall n)
  options : TransportBuildOptions E

/-- The store and the transport of one tick. -/
def publishTick (pool : TransportBufferPool) (s : ResourceState n) (tick : PublishTick n E) :
    Except String (ResourceState n × ResourcePublishTransport n E) :=
  createResourcePublishTransport (tick.calls.foldl ResourceState.call s) pool tick.options

/-- A store that publishes to a client: the store, the client's copy, and every transport sent,
the latest last. -/
structure PublishSession (n : ℕ) (E : Type) where
  store : ResourceState n
  client : Fin n → ResourceRow
  sent : List (ResourcePublishTransport n E)

/-- The first tick: the client copies the whole snapshot. -/
def startSession (pool : TransportBufferPool) (s : ResourceState n) (tick : PublishTick n E) :
    Except String (PublishSession n E) := do
  let (store, transport) ← publishTick pool s tick
  return { store, client := store.active.rows, sent := [transport] }

/-- A later tick: the client reads the transport only. -/
def PublishSession.tick (pool : TransportBufferPool) (session : PublishSession n E)
    (tick : PublishTick n E) : Except String (PublishSession n E) := do
  let (store, transport) ← publishTick pool session.store tick
  .ok
    { store, client := receive session.client transport, sent := session.sent ++ [transport] }

/-- A whole session. A tick that throws ends it. -/
def runSession (pool : TransportBufferPool) (s : ResourceState n) (first : PublishTick n E)
    (later : List (PublishTick n E)) : Except String (PublishSession n E) := do
  let session ← startSession pool s first
  later.foldlM (PublishSession.tick pool) session

/-! ### Lossless publishing -/

/-- Two rows are the same but for the tick delta and the dirty bit. -/
structure ResourceRow.Agrees (row row' : ResourceRow) : Prop where
  amount : row.amount = row'.amount
  capacity : row.capacity = row'.capacity
  incomePerSecond : row.incomePerSecond = row'.incomePerSecond
  expensePerSecond : row.expensePerSecond = row'.expensePerSecond
  netPerSecond : row.netPerSecond = row'.netPerSecond
  flags : row.flags.clearDirty = row'.flags.clearDirty
  dirtyTolerance : row.dirtyTolerance = row'.dirtyTolerance

instance : Std.Refl ResourceRow.Agrees := ⟨fun _ => ⟨rfl, rfl, rfl, rfl, rfl, rfl, rfl⟩⟩

instance : IsTrans ResourceRow ResourceRow.Agrees where
  trans _ _ _ h h' :=
    ⟨h.amount.trans h'.amount, h.capacity.trans h'.capacity,
      h.incomePerSecond.trans h'.incomePerSecond, h.expensePerSecond.trans h'.expensePerSecond,
      h.netPerSecond.trans h'.netPerSecond, h.flags.trans h'.flags,
      h.dirtyTolerance.trans h'.dirtyTolerance⟩

theorem ResourceRow.Agrees.of_untimed {row row' : ResourceRow}
    (h : zeroTickDelta row = zeroTickDelta row') : row.Agrees row' where
  amount := (congrArg ResourceRow.amount h :)
  capacity := (congrArg ResourceRow.capacity h :)
  incomePerSecond := (congrArg ResourceRow.incomePerSecond h :)
  expensePerSecond := (congrArg ResourceRow.expensePerSecond h :)
  netPerSecond := (congrArg ResourceRow.netPerSecond h :)
  flags := (congrArg (fun row : ResourceRow => row.flags.clearDirty) h :)
  dirtyTolerance := (congrArg ResourceRow.dirtyTolerance h :)

variable {pool : TransportBufferPool} {t : ResourcePublishTransport n E}

theorem buildResourcePublishTransport_eq {ids : Fin n → String} {snapshot : PublishBuffer n}
    {options : TransportBuildOptions E}
    (h : buildResourcePublishTransport ids snapshot pool options = .ok t) :
    ∃ events, t = populateComponentBuffers ids snapshot events := by
  unfold buildResourcePublishTransport at h
  simp only at h
  split at h
  · cases h
  · split at h
    · next hcount =>
      have hnil := List.eq_nil_of_length_eq_zero hcount
      obtain ⟨events, -, hempty⟩ := bind_ok h
      refine ⟨events, ?_⟩
      simp only [populateComponentBuffers, hnil, List.map_nil]
      exact (Except.ok.inj hempty).symm
    · obtain ⟨-, -, hcomponents⟩ := bind_ok h
      obtain ⟨-, -, hframe⟩ := bind_ok hcomponents
      obtain ⟨events, -, hbuilt⟩ := bind_ok hframe
      exact ⟨events, (Except.ok.inj hbuilt).symm⟩

theorem populateComponentBuffers_changes (ids : Fin n → String) (snapshot : PublishBuffer n)
    (events : Option E) :
    (populateComponentBuffers ids snapshot events).changes =
      snapshot.dirtyIndices.map fun i => (i, (snapshot.rows i).clearDirty) := by
  have hrow : ∀ p ∈ snapshot.dirtyIndices.zipIdx,
      ((populateComponentBuffers ids snapshot events).row? p.2).map (p.1, ·) =
        some (p.1, (snapshot.rows p.1).clearDirty) := by
    rintro ⟨i, k⟩ hp
    have hk : snapshot.dirtyIndices[k]? = some i := List.mem_zipIdx_iff_getElem?.mp hp
    simp [ResourcePublishTransport.row?, populateComponentBuffers, hk, ResourceRow.clearDirty]
  rw [ResourcePublishTransport.changes]
  calc snapshot.dirtyIndices.zipIdx.filterMap _
      = snapshot.dirtyIndices.zipIdx.filterMap
          (fun p => some (p.1, (snapshot.rows p.1).clearDirty)) := List.filterMap_congr hrow
    _ = snapshot.dirtyIndices.zipIdx.map fun p => (p.1, (snapshot.rows p.1).clearDirty) := by
        rw [List.filterMap_eq_map']
    _ = (snapshot.dirtyIndices.zipIdx.map Prod.fst).map
          fun i => (i, (snapshot.rows i).clearDirty) := by
        rw [List.map_map]
        rfl
    _ = _ := by rw [List.zipIdx_map_fst]

variable {s : ResourceState n}

theorem createResourcePublishTransport_ok {s' : ResourceState n} {options : TransportBuildOptions E}
    (h : createResourcePublishTransport s pool options = .ok (s', t)) :
    s' = s.createPublishSnapshot ∧
      ∃ events, t = populateComponentBuffers s'.ids s'.active events := by
  obtain ⟨transport, hbuild, hpair⟩ := bind_ok h
  obtain ⟨rfl, rfl⟩ := Prod.mk.inj (Except.ok.inj hpair)
  exact ⟨rfl, buildResourcePublishTransport_eq hbuild⟩

/-- The invariant of a session. -/
structure PublishSession.Lossless (session : PublishSession n E) : Prop where
  coherent : Coherent session.store
  client : ∀ i, (session.client i).Agrees (session.store.active.rows i)
  nodup : ∀ t ∈ session.sent, t.dirtyIndices.Nodup

/-- One tick: the buffers stay coherent, the rows the transport does not list are those of the
last publish, and it carries the listed rows. -/
theorem publishTick_spec {s' : ResourceState n} {tick : PublishTick n E} (hs : Coherent s)
    (h : publishTick pool s tick = .ok (s', t)) :
    Coherent s' ∧ t.dirtyIndices.Nodup ∧
      (t.changes = t.dirtyIndices.map fun i => (i, s'.active.rows i)) ∧
      ∀ i, i ∉ t.dirtyIndices → (s.active.rows i).Agrees (s'.active.rows i) := by
  obtain ⟨rfl, events, rfl⟩ := createResourcePublishTransport_ok h
  have hcalls := hs.calls tick.calls
  have hpublished := hcalls.coherent.publish
  have hp := createPublishSnapshot_spec hcalls.coherent.scratched
  refine ⟨hpublished, hpublished.dirty_nodup, ?_, fun i hi => ?_⟩
  · rw [populateComponentBuffers_changes]
    exact List.map_congr_left fun i _ => by rw [hpublished.active_clean]
  · have hstandby := hpublished.standby_agrees i hi
    rw [hp.standby, hcalls.frame.active] at hstandby
    exact .of_untimed hstandby

variable {session : PublishSession n E}

/-- **Step lemma.** A tick keeps the invariant of a session. -/
theorem PublishSession.Lossless.tick {session' : PublishSession n E} {tick : PublishTick n E}
    (h : session.Lossless) (htick : session.tick pool tick = .ok session') : session'.Lossless := by
  obtain ⟨⟨store, transport⟩, hrun, hnext⟩ := bind_ok htick
  obtain rfl := Except.ok.inj hnext
  obtain ⟨hcoherent, hnodup, hchanges, hunlisted⟩ := publishTick_spec h.coherent hrun
  refine ⟨hcoherent, fun i => ?_, fun t ht => ?_⟩
  · simp only [receive, hchanges]
    exact patch_agrees (R := ResourceRow.Agrees) h.client hunlisted i
  · rcases List.mem_append.mp ht with ht | ht
    · exact h.nodup t ht
    · rw [List.mem_singleton.mp ht]
      exact hnodup

theorem startSession_lossless {first : PublishTick n E} (hs : Coherent s)
    (h : startSession pool s first = .ok session) : session.Lossless := by
  obtain ⟨⟨store, transport⟩, hrun, hstart⟩ := bind_ok h
  obtain rfl := Except.ok.inj hstart
  obtain ⟨hcoherent, hnodup, -⟩ := publishTick_spec hs hrun
  refine ⟨hcoherent, fun i => Std.Refl.refl _, fun t ht => ?_⟩
  rw [List.mem_singleton.mp ht]
  exact hnodup

/-- **Run lemma.** A whole session keeps the invariant. -/
theorem runSession_lossless {first : PublishTick n E} {later : List (PublishTick n E)}
    (hs : Coherent s) (h : runSession pool s first later = .ok session) : session.Lossless := by
  obtain ⟨start, hstart, hlater⟩ := bind_ok h
  exact foldlM_ok (startSession_lossless hs hstart)
    (fun _ hlossless _ _ _ htick => hlossless.tick htick) hlater

/-- **Sparse publishing is lossless.** In every session of a created store, whatever the ticks
do, the client holds at every index the row of the snapshot the last transport was built from,
but for the tick delta and the dirty bit; and no transport lists an index twice. Every prefix of
a session is a session, so this is so after each transport. -/
theorem transports_lossless {definitions : Fin n → ResourceDefinition} {precision : Precision}
    {s : ResourceState n} (pool : TransportBufferPool) (first : PublishTick n E)
    (later : List (PublishTick n E)) {session : PublishSession n E}
    (hcreate : createResourceState definitions precision = .ok s)
    (hrun : runSession pool s first later = .ok session) :
    (∀ i, (session.client i).Agrees (session.store.active.rows i)) ∧
      ∀ t ∈ session.sent, t.dirtyIndices.Nodup :=
  have h := runSession_lossless (coherent_create hcreate) hrun
  ⟨h.client, h.nodup⟩

/-- Two transports of one resource, the second after a tick that changes it. -/
theorem transports_lossless_two_ticks :
    ∃ s session, createResourceState (fun _ : Fin 1 => goldDefinition) .default = .ok s ∧
      runSession (E := Unit) { maxDirtyCount := some 8 } s
        { calls := [.mutate (.addAmount 0 (.fin 5))], options := ⟨some 0, none⟩ }
        [{ calls := [.resetPerTickAccumulators, .mutate (.addAmount 0 (.fin 7)),
            .finalizeTick (.fin 100)], options := ⟨some 1, none⟩ }] = .ok session ∧
      (∀ i, (session.client i).Agrees (session.store.active.rows i)) ∧
      (session.client 0).amount = 12 := by
  obtain ⟨⟨s, session⟩, hrun, hamount⟩ := exists_ok
    (x := do
      let s ← createResourceState (fun _ : Fin 1 => goldDefinition) .default
      let session ← runSession (E := Unit) { maxDirtyCount := some 8 } s
        { calls := [.mutate (.addAmount 0 (.fin 5))], options := ⟨some 0, none⟩ }
        [{ calls := [.resetPerTickAccumulators, .mutate (.addAmount 0 (.fin 7)),
            .finalizeTick (.fin 100)], options := ⟨some 1, none⟩ }]
      return (s, session))
    (p := fun out => decide ((out.2.client 0).amount = 12)) (by decide +kernel)
  obtain ⟨s', hcreate, hrest⟩ := bind_ok hrun
  obtain ⟨session', hsession, hpair⟩ := bind_ok hrest
  obtain ⟨rfl, rfl⟩ := Prod.mk.inj (Except.ok.inj hpair)
  exact ⟨_, _, hcreate, hsession, (transports_lossless _ _ _ hcreate hsession).1,
    of_decide_eq_true hamount⟩

end IdleEngine
