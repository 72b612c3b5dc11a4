import IdleEngine.Resource.Transport
import Mathlib.Data.List.Induction
import Mathlib.Data.List.Sort

/-!
# The transport buffer pool and its leases

The pool lends out array buffers. An entry of the pool is either lent, and then found by its id, or
in the list of available entries of its kind, smallest first. A lease is handed out with a release
function that knows the entry's id and nothing else, so the pool cannot tell the release of the
current lease from a second release of an earlier one.

`PoolRun` is a pool with all leases that were handed out, and with the memory whether the release
function of each was called. Two leases are never live on one entry in a run in which no release
function is called again while its entry is lent (`PoolRun.leases_exclusive`); without that condition
they can be (`PoolRun.stale_release_aliases`).
-/

namespace IdleEngine

open List Option

/-- `BYTES_PER_ELEMENT`. -/
def TransportArrayKind.bytesPerElement : TransportArrayKind → ℕ
  | .float64Array => 8
  | .uint8Array => 1
  | .uint32Array => 4

/-- An entry of the pool: the capacity the pool remembers, and how many bytes the buffer has. A
buffer that was transferred away has none. -/
structure PoolEntry where
  id : ℕ
  kind : TransportArrayKind
  capacity : JsNumber
  byteLength : ℕ
  deriving DecidableEq

/-- The pool: the available entries of each kind, the lent ones, and the id of the next entry. -/
structure BufferPool where
  available : TransportArrayKind → List PoolEntry
  active : List PoolEntry
  nextId : ℕ
  maxDirtyCount : Option JsNumber

/-- What the holder of a lease sees of it. The array is made of the first `length` elements of the
entry's buffer; an empty lease has the id 0 and no entry. -/
structure BufferLease where
  id : ℕ
  kind : TransportArrayKind
  length : JsNumber
  capacity : JsNumber
  deriving DecidableEq

/-- Why `acquire` throws; `rangeError` comes from the array constructors. -/
inductive AcquireError
  | negativeLength (length : JsNumber)
  | exhausted (kind : TransportArrayKind) (length maxDirtyCount : JsNumber)
  | rangeError
  deriving DecidableEq

/-- The texts of the pool's own errors, given the text of a number. -/
def AcquireError.message (text : JsNumber → String) : AcquireError → Option String
  | .negativeLength length =>
      some ("TransportBufferPool cannot serve negative length (" ++ text length ++ ").")
  | .exhausted kind length maxDirtyCount =>
      some ("TransportBufferPool exhausted for " ++ kind.name ++ " (requested " ++ text length ++
        ", max " ++ text maxDirtyCount ++ ").")
  | .rangeError => none

/-! ### Buffers -/

/-- A length in bytes as `new ArrayBuffer` reads it: a fraction is cut off, and what is not a number
is no byte. -/
def bufferLength : JsNumber → ℕ → Option ℕ
  | .fin length, factor => if 0 ≤ length then some ⌊length * factor⌋₊ else none
  | .nan, _ => some 0
  | _, _ => none

/-- A new buffer for a number of elements, and the array over it. The constructors throw for a
length beyond what the host allocates and for a part of an element. -/
def allocate (maxByteLength : ℕ) (kind : TransportArrayKind) (capacity : JsNumber) : Option ℕ :=
  match bufferLength capacity kind.bytesPerElement with
  | none => none
  | some byteLength =>
      if byteLength ≤ maxByteLength ∧ byteLength % kind.bytesPerElement = 0 then some byteLength
      else none

/-- The entry as `release` puts it back: with the buffer it was given, or with a new one when its
own was transferred away; `none` when a constructor throws. -/
def PoolEntry.restored (maxByteLength : ℕ) (entry : PoolEntry) (buffer : Option ℕ) :
    Option PoolEntry :=
  match buffer with
  | some byteLength =>
      if byteLength % entry.kind.bytesPerElement = 0 then
        some { entry with
          capacity := .fin ((byteLength : ℚ) / entry.kind.bytesPerElement)
          byteLength }
      else none
  | none =>
      if entry.byteLength = 0 then
        (allocate maxByteLength entry.kind entry.capacity).map fun byteLength =>
          { entry with byteLength }
      else some entry

theorem PoolEntry.id_restored {maxByteLength : ℕ} {entry returned : PoolEntry} {buffer : Option ℕ}
    (h : entry.restored maxByteLength buffer = some returned) : returned.id = entry.id := by
  unfold PoolEntry.restored at h
  split at h
  · split at h
    · exact (congrArg PoolEntry.id (some.inj h)).symm
    · cases h
  · split at h
    · obtain ⟨-, -, rfl⟩ := map_eq_some_iff.mp h
      rfl
    · exact (congrArg PoolEntry.id (some.inj h)).symm

theorem PoolEntry.filter_ids {before after : List PoolEntry} {entry : PoolEntry}
    (h : ((before ++ entry :: after).map PoolEntry.id).Nodup) :
    (before ++ entry :: after).filter (fun other => decide (other.id ≠ entry.id)) =
      before ++ after := by
  rw [map_append, map_cons, nodup_middle, nodup_cons, ← map_append] at h
  have hself : ¬ decide (entry.id ≠ entry.id) = true := by simp
  rw [filter_append, filter_cons, if_neg hself, ← filter_append]
  refine filter_eq_self.mpr fun other hother => decide_eq_true fun heq => h.1 ?_
  rw [← heq]
  exact mem_map_of_mem hother

namespace BufferPool

/-- `a.capacity - b.capacity` is not positive. -/
def NotLarger (a b : PoolEntry) : Prop := b.capacity.lt a.capacity = false

instance : DecidableRel NotLarger := fun a b =>
  inferInstanceAs (Decidable (b.capacity.lt a.capacity = false))

/-- Put an entry into the list of its kind, which is sorted again. -/
def putBack (pool : BufferPool) (entry : PoolEntry) : BufferPool :=
  { pool with
    available := fun kind =>
      if kind = entry.kind then (pool.available kind ++ [entry]).insertionSort NotLarger
      else pool.available kind }

/-- `findAvailableEntry`: the first entry that is large enough, taken out of its list. -/
def findAvailableEntry (pool : BufferPool) (kind : TransportArrayKind) (requiredLength : JsNumber) :
    Option (PoolEntry × BufferPool) :=
  match (pool.available kind).find? fun candidate => requiredLength.le candidate.capacity with
  | none => none
  | some entry =>
      some (entry, { pool with
        available := fun k =>
          if k = kind then
            (pool.available k).eraseP fun candidate => requiredLength.le candidate.capacity
          else pool.available k })

/-- `createEntry`. -/
def createEntry (maxByteLength : ℕ) (pool : BufferPool) (kind : TransportArrayKind)
    (capacity : JsNumber) : Option (PoolEntry × BufferPool) :=
  (allocate maxByteLength kind capacity).map fun byteLength =>
    ({ id := pool.nextId, kind, capacity, byteLength }, { pool with nextId := pool.nextId + 1 })

/-- An entry that is large enough: an available one, or else a new one. -/
def obtainEntry (maxByteLength : ℕ) (pool : BufferPool) (kind : TransportArrayKind)
    (length : JsNumber) : Option (PoolEntry × BufferPool) :=
  (pool.findAvailableEntry kind length).or (pool.createEntry maxByteLength kind length)

/-- `bootstrapHint`. -/
def bootstrapHint (maxByteLength : ℕ) (pool : BufferPool) (hint : JsNumber)
    (kind : TransportArrayKind) : Option BufferPool :=
  (pool.createEntry maxByteLength kind hint).map fun created => created.2.putBack created.1

/-- The constructor: with a positive hint one entry of each kind is made in advance. -/
def create (maxByteLength : ℕ) (maxEstimatedDirty maxDirtyCount : Option JsNumber) :
    Option BufferPool :=
  let pool : BufferPool := { available := fun _ => [], active := [], nextId := 1, maxDirtyCount }
  match maxEstimatedDirty with
  | none => some pool
  | some hint =>
      if (JsNumber.fin 0).lt hint then
        (((pool.bootstrapHint maxByteLength hint .float64Array).bind
          (·.bootstrapHint maxByteLength hint .uint8Array)).bind
          (·.bootstrapHint maxByteLength hint .uint32Array))
      else some pool

/-- `acquire`. -/
def acquire (maxByteLength : ℕ) (pool : BufferPool) (kind : TransportArrayKind)
    (length : JsNumber) : Except AcquireError (BufferLease × BufferPool) :=
  if length.lt (.fin 0) then .error (.negativeLength length)
  else if length = .fin 0 then
    .ok ({ id := 0, kind, length := .fin 0, capacity := .fin 0 }, pool)
  else
    match pool.maxDirtyCount.filter fun maxDirtyCount => maxDirtyCount.lt length with
    | some maxDirtyCount => .error (.exhausted kind length maxDirtyCount)
    | none =>
        match pool.obtainEntry maxByteLength kind length with
        | none => .error .rangeError
        | some (entry, pool) =>
            .ok ({ id := entry.id, kind, length, capacity := entry.capacity },
              { pool with active := pool.active ++ [entry] })

/-- `release`: an id that is not lent is reported and ignored. If a constructor throws, the entry is
neither lent nor available from then on. -/
def release (maxByteLength : ℕ) (pool : BufferPool) (id : ℕ) (buffer : Option ℕ) : BufferPool :=
  match pool.active.find? fun entry => decide (entry.id = id) with
  | none => pool
  | some entry =>
      let pool := { pool with active := pool.active.filter fun entry => decide (entry.id ≠ id) }
      match entry.restored maxByteLength buffer with
      | none => pool
      | some entry => pool.putBack entry

/-- The holder of a lease transfers the buffer of a lent entry away. -/
def transfer (pool : BufferPool) (id : ℕ) : BufferPool :=
  { pool with
    active := pool.active.map fun entry =>
      if entry.id = id then { entry with byteLength := 0 } else entry }

/-! ### The ids of the entries -/

def activeIds (pool : BufferPool) : List ℕ := pool.active.map PoolEntry.id

def availableIds (pool : BufferPool) : List ℕ :=
  [.float64Array, .uint8Array, .uint32Array].flatMap fun kind =>
    (pool.available kind).map PoolEntry.id

/-- The ids of the entries that the pool holds, lent or not. -/
def entryIds (pool : BufferPool) : List ℕ := pool.activeIds ++ pool.availableIds

/-- No entry is held twice, and the ids are those given so far. -/
structure WellNumbered (pool : BufferPool) : Prop where
  nodup : pool.entryIds.Nodup
  numbered : ∀ id ∈ pool.entryIds, 0 < id ∧ id < pool.nextId
  next : 0 < pool.nextId

theorem availableIds_putBack (pool : BufferPool) (entry : PoolEntry) :
    (pool.putBack entry).availableIds.Perm (entry.id :: pool.availableIds) := by
  have hsorted : ((pool.available entry.kind ++ [entry]).insertionSort NotLarger).map PoolEntry.id
      |>.Perm (entry.id :: (pool.available entry.kind).map PoolEntry.id) := by
    refine ((perm_insertionSort NotLarger _).map _).trans ?_
    rw [map_append]
    exact perm_append_comm
  have hother : ∀ kind, kind ≠ entry.kind → (pool.putBack entry).available kind =
      pool.available kind := fun kind hkind => if_neg hkind
  have hsame : (pool.putBack entry).available entry.kind =
      (pool.available entry.kind ++ [entry]).insertionSort NotLarger := if_pos rfl
  rw [← hsame] at hsorted
  simp only [availableIds, flatMap_cons, flatMap_nil, append_nil]
  rcases hkind : entry.kind with _ | _ | _ <;> rw [hkind] at hsorted hother
  · rw [hother .uint8Array (by decide), hother .uint32Array (by decide)]
    exact hsorted.append_right _
  · rw [hother .float64Array (by decide), hother .uint32Array (by decide)]
    exact ((hsorted.append_right _).append_left _).trans perm_middle
  · rw [hother .float64Array (by decide), hother .uint8Array (by decide)]
    refine ((hsorted.append_left _).append_left _).trans ?_
    rw [← append_assoc, ← append_assoc]
    exact perm_middle

theorem entryIds_putBack (pool : BufferPool) (entry : PoolEntry) :
    (pool.putBack entry).entryIds.Perm (entry.id :: pool.entryIds) :=
  ((availableIds_putBack pool entry).append_left _).trans perm_middle

variable {pool pool' : BufferPool} {kind : TransportArrayKind} {length : JsNumber}

theorem entryIds_findAvailableEntry {entry : PoolEntry}
    (h : pool.findAvailableEntry kind length = some (entry, pool')) :
    pool.entryIds.Perm (entry.id :: pool'.entryIds) ∧ pool'.active = pool.active ∧
      pool'.nextId = pool.nextId := by
  unfold findAvailableEntry at h
  generalize hfind : ((pool.available kind).find? fun candidate =>
    length.le candidate.capacity) = found at h
  rcases found with _ | found
  · cases h
  · obtain ⟨rfl, rfl⟩ := Prod.mk.inj (some.inj h)
    refine ⟨?_, rfl, rfl⟩
    have htaken : (pool.available kind).map PoolEntry.id |>.Perm (found.id ::
        ((pool.available kind).eraseP fun candidate => length.le candidate.capacity).map
          PoolEntry.id) := by
      obtain ⟨hle, before, after, hlist, hbefore⟩ := find?_eq_some_iff_append.mp hfind
      have hskip : ∀ candidate ∈ before, ¬ length.le candidate.capacity = true := by
        intro candidate hcandidate
        simpa using hbefore candidate hcandidate
      have hdrop : (found :: after).eraseP (fun candidate : PoolEntry => length.le candidate.capacity) =
          after :=
        eraseP_cons_of_pos (p := fun candidate : PoolEntry => length.le candidate.capacity) hle
      rw [hlist, eraseP_append_right _ hskip, hdrop, map_append, map_append,
        map_cons]
      exact perm_middle
    refine (List.Perm.append_left _ ?_).trans perm_middle
    simp only [availableIds, flatMap_cons, flatMap_nil, append_nil]
    rcases kind with _ | _ | _
    · exact htaken.append_right _
    · exact ((htaken.append_right _).append_left _).trans perm_middle
    · refine ((htaken.append_left _).append_left _).trans ?_
      rw [← append_assoc, ← append_assoc]
      exact perm_middle

variable {maxByteLength : ℕ}

/-- The entry for a lease is not held by the pool any more, and its id is one given so far. -/
theorem WellNumbered.obtainEntry (h : pool.WellNumbered) {entry : PoolEntry}
    (hobtain : pool.obtainEntry maxByteLength kind length = some (entry, pool')) :
    (entry.id :: pool'.entryIds).Nodup ∧
      (∀ id ∈ entry.id :: pool'.entryIds, 0 < id ∧ id < pool'.nextId) ∧
      pool'.active = pool.active ∧ pool.nextId ≤ pool'.nextId := by
  rw [BufferPool.obtainEntry, or_eq_some_iff] at hobtain
  rcases hobtain with hfound | ⟨-, hcreated⟩
  · obtain ⟨hperm, hactive, hnext⟩ := entryIds_findAvailableEntry hfound
    refine ⟨hperm.nodup_iff.mp h.nodup, fun id hid => ?_, hactive, hnext.ge⟩
    rw [hnext]
    exact h.numbered id (hperm.mem_iff.mpr hid)
  · obtain ⟨byteLength, -, hpair⟩ := map_eq_some_iff.mp hcreated
    obtain ⟨rfl, rfl⟩ := Prod.mk.inj hpair
    refine ⟨nodup_cons.mpr ⟨fun hmem => ?_, h.nodup⟩, fun id hid => ?_, rfl, Nat.le_succ _⟩
    · exact absurd (h.numbered _ hmem).2 (lt_irrefl _)
    · rcases mem_cons.mp hid with rfl | hid
      · exact ⟨h.next, Nat.lt_succ_self _⟩
      · exact ⟨(h.numbered id hid).1, (h.numbered id hid).2.trans (Nat.lt_succ_self _)⟩

/-- The ids after a lease: the entry of the lease is lent, and it was not before. -/
theorem WellNumbered.acquire (h : pool.WellNumbered) {lease : BufferLease}
    (hacquire : pool.acquire maxByteLength kind length = .ok (lease, pool')) :
    pool'.WellNumbered ∧ pool.nextId ≤ pool'.nextId ∧ lease.id < pool'.nextId ∧
      (lease.id = 0 ∧ pool'.activeIds = pool.activeIds ∨
        lease.id ∉ pool.activeIds ∧ pool'.activeIds = pool.activeIds ++ [lease.id]) := by
  unfold BufferPool.acquire at hacquire
  split at hacquire
  · cases hacquire
  · split at hacquire
    · obtain ⟨rfl, rfl⟩ := Prod.mk.inj (Except.ok.inj hacquire)
      exact ⟨h, le_rfl, h.next, .inl ⟨rfl, rfl⟩⟩
    · split at hacquire
      · cases hacquire
      · split at hacquire
        · cases hacquire
        · next entry lender hobtain =>
          obtain ⟨rfl, rfl⟩ := Prod.mk.inj (Except.ok.inj hacquire)
          obtain ⟨hnodup, hnumbered, hactive, hnext⟩ := h.obtainEntry hobtain
          have hids : entryIds { lender with active := lender.active ++ [entry] } |>.Perm
              (entry.id :: lender.entryIds) := by
            rw [entryIds, activeIds, map_append, append_assoc]
            exact perm_middle
          have hold : lender.activeIds = pool.activeIds := congrArg (map PoolEntry.id) hactive
          refine ⟨⟨hids.nodup_iff.mpr hnodup, fun id hid => hnumbered id (hids.mem_iff.mp hid),
            h.next.trans_le hnext⟩, hnext, (hnumbered _ mem_cons_self).2, .inr ⟨?_, ?_⟩⟩
          · rw [← hold]
            exact fun hmem => (nodup_cons.mp hnodup).1 (mem_append_left _ hmem)
          · rw [← hold, activeIds, map_append]
            rfl

theorem activeIds_release (pool : BufferPool) (id : ℕ) (buffer : Option ℕ) :
    (pool.release maxByteLength id buffer).activeIds = pool.activeIds.filter (· ≠ id) := by
  have hfilter : (pool.active.filter fun entry => decide (entry.id ≠ id)).map PoolEntry.id =
      pool.activeIds.filter (· ≠ id) := by
    rw [activeIds, List.filter_map]
    rfl
  unfold release
  split
  · next hnone =>
    rw [find?_eq_none] at hnone
    refine (filter_eq_self.mpr fun other hother => ?_).symm
    obtain ⟨entry, hentry, rfl⟩ := mem_map.mp hother
    simpa using hnone entry hentry
  · dsimp only
    split
    · exact hfilter
    · exact hfilter

theorem WellNumbered.release (h : pool.WellNumbered) (id : ℕ) (buffer : Option ℕ) :
    (pool.release maxByteLength id buffer).WellNumbered ∧
      (pool.release maxByteLength id buffer).nextId = pool.nextId := by
  unfold BufferPool.release
  split
  · exact ⟨h, rfl⟩
  · next entry hfind =>
    have hid : entry.id = id := by simpa using find?_some hfind
    obtain ⟨before, after, hactive⟩ := append_of_mem (mem_of_find?_eq_some hfind)
    have hrest : (pool.active.filter fun entry => decide (entry.id ≠ id)) = before ++ after := by
      rw [hactive, ← hid]
      refine PoolEntry.filter_ids ?_
      rw [← hactive]
      exact (nodup_append.mp h.nodup).1
    have hperm : pool.entryIds.Perm (entry.id ::
        entryIds { pool with active := before ++ after }) := by
      rw [entryIds, entryIds, activeIds, activeIds, hactive, map_append, map_cons,
        map_append, append_assoc, append_assoc]
      exact perm_middle
    have hnodup' := hperm.nodup_iff.mp h.nodup
    have hnumbered' : ∀ other ∈ entry.id :: entryIds { pool with active := before ++ after },
        0 < other ∧ other < pool.nextId :=
      fun other hother => h.numbered other (hperm.mem_iff.mpr hother)
    rw [hrest]
    dsimp only
    split
    · exact ⟨⟨(nodup_cons.mp hnodup').2,
        fun other hother => hnumbered' other (mem_cons_of_mem _ hother), h.next⟩, rfl⟩
    · next returned hrestored =>
      have hreturned : returned.id = entry.id := PoolEntry.id_restored hrestored
      have hback := entryIds_putBack { pool with active := before ++ after } returned
      rw [hreturned] at hback
      exact ⟨⟨hback.nodup_iff.mpr hnodup',
        fun other hother => hnumbered' other (hback.mem_iff.mp hother), h.next⟩, rfl⟩

theorem activeIds_transfer (pool : BufferPool) (id : ℕ) :
    (pool.transfer id).activeIds = pool.activeIds := by
  rw [activeIds, activeIds, transfer, List.map_map]
  refine map_congr_left fun entry _ => ?_
  rw [Function.comp_apply]
  split
  · rfl
  · rfl

theorem WellNumbered.transfer (h : pool.WellNumbered) (id : ℕ) :
    (pool.transfer id).WellNumbered := by
  have hids : (pool.transfer id).entryIds = pool.entryIds := by
    rw [entryIds, activeIds_transfer]
    rfl
  exact ⟨hids ▸ h.nodup, hids ▸ h.numbered, h.next⟩

theorem WellNumbered.bootstrapHint (h : pool.WellNumbered) {hint : JsNumber}
    (hbootstrap : pool.bootstrapHint maxByteLength hint kind = some pool') :
    pool'.WellNumbered ∧ pool'.active = pool.active := by
  obtain ⟨created, hcreated, rfl⟩ := map_eq_some_iff.mp hbootstrap
  obtain ⟨byteLength, -, rfl⟩ := map_eq_some_iff.mp hcreated
  have hperm := entryIds_putBack { pool with nextId := pool.nextId + 1 }
    { id := pool.nextId, kind, capacity := hint, byteLength }
  refine ⟨⟨hperm.nodup_iff.mpr (nodup_cons.mpr ⟨fun hmem => ?_, h.nodup⟩), fun id hid => ?_,
    Nat.succ_pos _⟩, rfl⟩
  · exact absurd (h.numbered _ hmem).2 (lt_irrefl _)
  · rcases mem_cons.mp (hperm.mem_iff.mp hid) with rfl | hid
    · exact ⟨h.next, Nat.lt_succ_self _⟩
    · exact ⟨(h.numbered id hid).1, (h.numbered id hid).2.trans (Nat.lt_succ_self _)⟩

/-- A new pool has lent nothing. -/
theorem wellNumbered_create {maxEstimatedDirty maxDirtyCount : Option JsNumber}
    (h : create maxByteLength maxEstimatedDirty maxDirtyCount = some pool) :
    pool.WellNumbered ∧ pool.active = [] := by
  have hempty : WellNumbered
      { available := fun _ => [], active := [], nextId := 1, maxDirtyCount } :=
    ⟨nodup_nil, fun _ hid => absurd hid not_mem_nil, Nat.one_pos⟩
  unfold create at h
  dsimp only at h
  split at h
  · obtain rfl := some.inj h
    exact ⟨hempty, rfl⟩
  · split at h
    · obtain ⟨second, hsecond, hthird⟩ := bind_eq_some_iff.mp h
      obtain ⟨first, hfirst, hsecond⟩ := bind_eq_some_iff.mp hsecond
      obtain ⟨hfirst, hactive₁⟩ := hempty.bootstrapHint hfirst
      obtain ⟨hsecond, hactive₂⟩ := hfirst.bootstrapHint hsecond
      obtain ⟨hthird, hactive₃⟩ := hsecond.bootstrapHint hthird
      exact ⟨hthird, hactive₃.trans (hactive₂.trans hactive₁)⟩
    · obtain rfl := some.inj h
      exact ⟨hempty, rfl⟩

end BufferPool

/-! ### Leases and their holders -/

/-- A lease that was handed out, and whether its release function was called. -/
structure LeaseRecord where
  lease : BufferLease
  released : Bool
  deriving DecidableEq

/-- The lease has an entry, and its release function was not called yet. -/
def LeaseRecord.live (record : LeaseRecord) : Prop :=
  record.released = false ∧ record.lease.id ≠ 0

/-- A call of a holder. Leases are named by the order in which they were handed out. -/
inductive PoolCall
  | acquire (kind : TransportArrayKind) (length : JsNumber)
  | release (index : ℕ) (buffer : Option ℕ)
  | transfer (index : ℕ)

/-- A pool with the leases it handed out, the oldest first. -/
structure PoolRun where
  pool : BufferPool
  leases : List LeaseRecord

namespace PoolRun

/-- One call. The release function of an empty lease does nothing; the others pass on their id,
whoever holds the entry by now. Only the holder of a live lease transfers its buffer. -/
def step (maxByteLength : ℕ) (run : PoolRun) : PoolCall → PoolRun
  | .acquire kind length =>
      match run.pool.acquire maxByteLength kind length with
      | .error _ => run
      | .ok (lease, pool) => { pool, leases := run.leases ++ [{ lease, released := false }] }
  | .release index buffer =>
      match run.leases[index]? with
      | none => run
      | some record =>
          { pool :=
              if record.lease.id = 0 then run.pool
              else run.pool.release maxByteLength record.lease.id buffer
            leases := run.leases.modify index fun record => { record with released := true } }
  | .transfer index =>
      match run.leases[index]? with
      | none => run
      | some record =>
          if record.released then run
          else { run with pool := run.pool.transfer record.lease.id }

/-- A sequence of calls on a new pool. -/
def calls (maxByteLength : ℕ) (pool : BufferPool) (actions : List PoolCall) : PoolRun :=
  actions.foldl (step maxByteLength) { pool, leases := [] }

/-- **No two live leases share an entry.** -/
def Exclusive (run : PoolRun) : Prop :=
  ∀ (i j : ℕ) (a b : LeaseRecord), run.leases[i]? = some a → run.leases[j]? = some b → a.live → b.live →
    a.lease.id = b.lease.id → i = j

/-- The lease is the last one that was handed out for its entry. -/
def Current (run : PoolRun) (index : ℕ) : Prop :=
  ∃ record : LeaseRecord, run.leases[index]? = some record ∧
    ∀ (later : ℕ) (other : LeaseRecord), index < later → run.leases[later]? = some other →
      other.lease.id ≠ record.lease.id

/-- The release function of the lease would take its entry back now: the entry is lent. -/
def TakesBack (run : PoolRun) (index : ℕ) : Prop :=
  ∃ record : LeaseRecord, run.leases[index]? = some record ∧ record.lease.id ∈ run.pool.activeIds

/-- The call is not a **stale release**: it does not call a release function that was called before
while the entry is lent. -/
def NotStale (run : PoolRun) : PoolCall → Prop
  | .release index _ =>
      ∀ record : LeaseRecord, run.leases[index]? = some record → record.released = true →
        record.lease.id ∉ run.pool.activeIds
  | _ => True

/-- What holds while no release is stale: the lent entries are those of the live leases, and a live
lease is the last one of its entry. -/
structure Lending (run : PoolRun) : Prop where
  pool : run.pool.WellNumbered
  known : ∀ record ∈ run.leases, record.lease.id < run.pool.nextId
  lent : ∀ (index : ℕ) (record : LeaseRecord), run.leases[index]? = some record → record.live →
    record.lease.id ∈ run.pool.activeIds ∧
      ∀ (later : ℕ) (other : LeaseRecord), index < later → run.leases[later]? = some other →
        other.lease.id ≠ record.lease.id
  held : ∀ id ∈ run.pool.activeIds, ∃ (index : ℕ) (record : LeaseRecord), run.leases[index]? = some record ∧
    record.live ∧ record.lease.id = id

variable {run : PoolRun}

theorem Lending.exclusive (h : run.Lending) : run.Exclusive := by
  intro i j a b hi hj ha hb hid
  rcases lt_trichotomy i j with hlt | heq | hgt
  · exact absurd hid.symm ((h.lent i a hi ha).2 j b hlt hj)
  · exact heq
  · exact absurd hid ((h.lent j b hj hb).2 i a hgt hi)

theorem Lending.current (h : run.Lending) {index : ℕ} {buffer : Option ℕ}
    (hstale : run.NotStale (.release index buffer)) (htakes : run.TakesBack index) :
    run.Current index := by
  obtain ⟨record, hrecord, hactive⟩ := htakes
  have hreleased : record.released = false := by
    rcases hflag : record.released with _ | _
    · rfl
    · exact absurd hactive (hstale record hrecord hflag)
  have hpositive : record.lease.id ≠ 0 :=
    (h.pool.numbered _ (mem_append_left _ hactive)).1.ne'
  exact ⟨record, hrecord, (h.lent index record hrecord ⟨hreleased, hpositive⟩).2⟩

variable {maxByteLength : ℕ}

theorem Lending.acquire (h : run.Lending) {kind : TransportArrayKind} {length : JsNumber}
    {lease : BufferLease} {pool : BufferPool}
    (hacquire : run.pool.acquire maxByteLength kind length = .ok (lease, pool)) :
    Lending { pool, leases := run.leases ++ [{ lease, released := false }] } := by
  obtain ⟨hpool, hnext, hid, hactive⟩ := h.pool.acquire hacquire
  have hsub : ∀ id ∈ run.pool.activeIds, id ∈ pool.activeIds := by
    intro id hmem
    rcases hactive with ⟨-, hsame⟩ | ⟨-, hmore⟩
    · rwa [hsame]
    · rw [hmore]
      exact mem_append_left _ hmem
  -- a lease of the list is an old one, or the new one at its end
  have hcases : ∀ (index : ℕ) (record : LeaseRecord),
      (run.leases ++ [{ lease, released := false }])[index]? = some record →
        run.leases[index]? = some record ∨
          index = run.leases.length ∧ record = { lease, released := false } := by
    intro index record hrecord
    rcases lt_or_ge index run.leases.length with hlt | hge
    · rw [getElem?_append_left hlt] at hrecord
      exact .inl hrecord
    · rw [getElem?_append_right hge, getElem?_singleton] at hrecord
      split at hrecord
      · exact .inr ⟨by omega, (some.inj hrecord).symm⟩
      · cases hrecord
  have hold : ∀ (index : ℕ) (record : LeaseRecord), run.leases[index]? = some record →
      (run.leases ++ [{ lease, released := false }])[index]? = some record := by
    intro index record hrecord
    rw [getElem?_append_left (List.getElem?_eq_some_iff.mp hrecord).1]
    exact hrecord
  refine ⟨hpool, ?_, ?_, ?_⟩
  · intro record hrecord
    rcases mem_append.mp hrecord with hmem | hmem
    · exact (h.known record hmem).trans_le hnext
    · obtain rfl := mem_singleton.mp hmem
      exact hid
  · intro index record hrecord hlive
    rcases hcases index record hrecord with hrecord | ⟨rfl, rfl⟩
    · obtain ⟨hmem, hlater⟩ := h.lent index record hrecord hlive
      refine ⟨hsub _ hmem, fun later other hlt hother => ?_⟩
      rcases hcases later other hother with hother | ⟨-, rfl⟩
      · exact hlater later other hlt hother
      · intro heq
        rcases hactive with ⟨hzero, -⟩ | ⟨hfresh, -⟩
        · exact hlive.2 (heq ▸ hzero)
        · exact hfresh (heq ▸ hmem)
    · refine ⟨?_, fun later other hlt hother => ?_⟩
      · rcases hactive with ⟨hzero, -⟩ | ⟨-, hmore⟩
        · exact absurd hzero hlive.2
        · rw [hmore]
          exact mem_append_right _ mem_cons_self
      · have hlength := (List.getElem?_eq_some_iff.mp hother).1
        rw [length_append, length_singleton] at hlength
        omega
  · intro id hmem
    have hfrom : id ∈ run.pool.activeIds ∨ lease.id ≠ 0 ∧ id = lease.id := by
      rcases hactive with ⟨-, hsame⟩ | ⟨-, hmore⟩
      · exact .inl (hsame ▸ hmem)
      · rw [hmore] at hmem
        rcases mem_append.mp hmem with hmem | hmem
        · exact .inl hmem
        · have hlent : lease.id ∈ pool.activeIds := by
            rw [hmore]
            exact mem_append_right _ mem_cons_self
          exact .inr ⟨(hpool.numbered _ (mem_append_left _ hlent)).1.ne',
            mem_singleton.mp hmem⟩
    rcases hfrom with hmem | ⟨hpositive, rfl⟩
    · obtain ⟨index, record, hrecord, hlive, hid⟩ := h.held id hmem
      exact ⟨index, record, hold index record hrecord, hlive, hid⟩
    · exact ⟨run.leases.length, { lease, released := false }, by
        rw [getElem?_append_right le_rfl, Nat.sub_self]; rfl, ⟨rfl, hpositive⟩, rfl⟩

theorem Lending.release (h : run.Lending) {index : ℕ} {buffer : Option ℕ}
    (hstale : run.NotStale (.release index buffer)) :
    (run.step maxByteLength (.release index buffer)).Lending := by
  rw [step]
  split
  · exact h
  · next record hrecord =>
    -- the empty lease has no entry, so leaving the pool alone is releasing the id 0
    have hzero : 0 ∉ run.pool.activeIds := fun hmem =>
      lt_irrefl 0 (h.pool.numbered 0 (mem_append_left _ hmem)).1
    have hids : (if record.lease.id = 0 then run.pool
        else run.pool.release maxByteLength record.lease.id buffer).activeIds =
          run.pool.activeIds.filter (· ≠ record.lease.id) := by
      split
      · next hid =>
        refine (filter_eq_self.mpr fun other hother => ?_).symm
        have hne : other ≠ record.lease.id := by
          rintro rfl
          exact hzero (hid ▸ hother)
        exact decide_eq_true hne
      · exact run.pool.activeIds_release _ _
    have hpool : (if record.lease.id = 0 then run.pool
        else run.pool.release maxByteLength record.lease.id buffer).WellNumbered ∧
          (if record.lease.id = 0 then run.pool
            else run.pool.release maxByteLength record.lease.id buffer).nextId =
              run.pool.nextId := by
      split
      · exact ⟨h.pool, rfl⟩
      · exact h.pool.release _ _
    generalize (if record.lease.id = 0 then run.pool
      else run.pool.release maxByteLength record.lease.id buffer) = pool at hids hpool
    have hcases : ∀ (j : ℕ) (other : LeaseRecord),
        (run.leases.modify index fun record => { record with released := true })[j]? = some other →
          ∃ old, run.leases[j]? = some old ∧ other.lease = old.lease ∧
            (other.released = false → j ≠ index ∧ other = old) := by
      intro j other hother
      rw [getElem?_modify] at hother
      obtain ⟨old, hold, rfl⟩ := map_eq_some_iff.mp hother
      split
      · exact ⟨old, hold, rfl, fun hflag => by cases hflag⟩
      · next hne => exact ⟨old, hold, rfl, fun _ => ⟨fun heq => hne heq.symm, rfl⟩⟩
    refine ⟨hpool.1, ?_, ?_, ?_⟩
    · intro other hother
      obtain ⟨j, hj⟩ := mem_iff_getElem?.mp hother
      obtain ⟨old, hold, hlease, -⟩ := hcases j other hj
      rw [hlease, hpool.2]
      exact h.known old (mem_of_getElem? hold)
    · intro j other hother hlive
      obtain ⟨old, hold, -, hkept⟩ := hcases j other hother
      obtain ⟨hne, rfl⟩ := hkept hlive.1
      obtain ⟨hmem, hlater⟩ := h.lent j other hold hlive
      refine ⟨?_, fun later next hlt hnext => ?_⟩
      · rw [hids]
        refine mem_filter.mpr ⟨hmem, ?_⟩
        refine decide_eq_true (p := other.lease.id ≠ record.lease.id) fun heq => hne ?_
        -- the entry is lent, so the released lease was live and is this one
        have hreleased : record.released = false := by
          rcases hflag : record.released with _ | _
          · rfl
          · exact absurd (heq ▸ hmem) (hstale record hrecord hflag)
        exact h.exclusive j index other record hold hrecord hlive
          ⟨hreleased, heq ▸ hlive.2⟩ heq
      · obtain ⟨oldNext, holdNext, hlease, -⟩ := hcases later next hnext
        rw [hlease]
        exact hlater later oldNext hlt holdNext
    · intro id hid
      rw [hids] at hid
      obtain ⟨hmem, hne⟩ := mem_filter.mp hid
      obtain ⟨j, other, hother, hlive, rfl⟩ := h.held id hmem
      have hj : index ≠ j := by
        rintro rfl
        rw [hrecord] at hother
        obtain rfl := some.inj hother
        exact of_decide_eq_true hne rfl
      refine ⟨j, other, ?_, hlive, rfl⟩
      rw [getElem?_modify, hother]
      exact congrArg some (if_neg hj)

theorem Lending.transfer (h : run.Lending) (index : ℕ) :
    (run.step maxByteLength (.transfer index)).Lending := by
  rw [step]
  split
  · exact h
  · split
    · exact h
    · next record _ _ =>
      refine ⟨h.pool.transfer _, h.known, ?_, ?_⟩
      · dsimp only
        rw [BufferPool.activeIds_transfer]
        exact h.lent
      · dsimp only
        rw [BufferPool.activeIds_transfer]
        exact h.held

/-- **One call keeps the lending in order, if it is not a stale release.** -/
theorem Lending.step (h : run.Lending) {action : PoolCall} (hstale : run.NotStale action) :
    (run.step maxByteLength action).Lending := by
  rcases action with ⟨kind, length⟩ | ⟨index, buffer⟩ | index
  · rw [PoolRun.step]
    split
    · exact h
    · next lease pool hacquire => exact h.acquire hacquire
  · exact h.release hstale
  · exact h.transfer index

theorem lending_create {maxEstimatedDirty maxDirtyCount : Option JsNumber} {pool : BufferPool}
    (h : BufferPool.create maxByteLength maxEstimatedDirty maxDirtyCount = some pool) :
    Lending { pool, leases := [] } := by
  obtain ⟨hpool, hactive⟩ := BufferPool.wellNumbered_create h
  refine ⟨hpool, fun record hrecord => ?_, fun index record hrecord => ?_, fun id hid => ?_⟩
  · cases hrecord
  · cases hrecord
  · rw [BufferPool.activeIds, hactive] at hid
    cases hid

theorem calls_append (pool : BufferPool) (actions actions' : List PoolCall) :
    calls maxByteLength pool (actions ++ actions') =
      actions'.foldl (step maxByteLength) (calls maxByteLength pool actions) := by
  rw [calls, foldl_append]
  rfl

/-- No call of a sequence is a stale release. -/
def NeverStale (maxByteLength : ℕ) (pool : BufferPool) (actions : List PoolCall) : Prop :=
  ∀ before action after, actions = before ++ action :: after →
    (calls maxByteLength pool before).NotStale action

/-- **Leases are exclusive while no release is stale.** In every sequence of calls on a new pool in
which no release function is called again while its entry is lent, two live leases never share an
entry, and an entry is taken back through its current lease only. -/
theorem leases_exclusive {maxEstimatedDirty maxDirtyCount : Option JsNumber} {pool : BufferPool}
    (hcreate : BufferPool.create maxByteLength maxEstimatedDirty maxDirtyCount = some pool)
    (actions : List PoolCall) (hstale : NeverStale maxByteLength pool actions) :
    (calls maxByteLength pool actions).Exclusive ∧
      ∀ before index buffer after, actions = before ++ .release index buffer :: after →
        (calls maxByteLength pool before).TakesBack index →
          (calls maxByteLength pool before).Current index := by
  have hlending : ∀ before after, actions = before ++ after →
      (calls maxByteLength pool before).Lending := by
    intro before
    induction before using List.reverseRec with
    | nil => exact fun _ _ => lending_create hcreate
    | append_singleton before action ih =>
      intro after hactions
      rw [List.append_assoc] at hactions
      rw [calls_append]
      exact (ih _ hactions).step (hstale before action after hactions)
  refine ⟨(hlending actions [] (List.append_nil _).symm).exclusive, ?_⟩
  intro before index buffer after hactions htakes
  exact (hlending before _ hactions).current (hstale before _ after hactions) htakes

/-- An entry that is returned and lent again. -/
theorem leases_exclusive_reuse :
    ∃ pool, BufferPool.create 4096 none none = some pool ∧
      (calls 4096 pool [.acquire .uint8Array (.fin 4), .release 0 none,
        .acquire .uint8Array (.fin 6)]).Exclusive := by
  have hcreate : BufferPool.create 4096 none none = some _ := rfl
  refine ⟨_, hcreate, (leases_exclusive hcreate _ ?_).1⟩
  intro before action after hactions
  rcases before with _ | ⟨first, _ | ⟨second, _ | ⟨third, before⟩⟩⟩
  · cases hactions
    trivial
  · cases hactions
    intro record hrecord hreleased
    have hflag : ((calls 4096 ⟨fun _ => [], [], 1, none⟩
        [.acquire .uint8Array (.fin 4)]).leases[0]?).map LeaseRecord.released = some false := by
      decide +kernel
    rw [hrecord, Option.map_some, hreleased] at hflag
    cases hflag
  · cases hactions
    trivial
  · simp at hactions

/-- Acquire, release, acquire again, release the first lease once more, acquire a third time. -/
def staleRelease : List PoolCall :=
  [.acquire .uint8Array (.fin 4), .release 0 none, .acquire .uint8Array (.fin 4), .release 0 none,
    .acquire .uint8Array (.fin 4)]

/-- **A stale release aliases two leases.** The second and the third lease are both live, on the one
entry of the pool. -/
theorem stale_release_aliases :
    ∃ pool, BufferPool.create 4096 none none = some pool ∧
      ¬ (calls 4096 pool staleRelease).Exclusive := by
  refine ⟨_, rfl, fun h => ?_⟩
  have hshared := h 1 2 { lease := ⟨1, .uint8Array, .fin 4, .fin 4⟩, released := false }
    { lease := ⟨1, .uint8Array, .fin 4, .fin 4⟩, released := false } (by decide +kernel)
    (by decide +kernel) ⟨rfl, by decide⟩ ⟨rfl, by decide⟩ rfl
  exact absurd hshared (by decide)

end PoolRun

end IdleEngine
