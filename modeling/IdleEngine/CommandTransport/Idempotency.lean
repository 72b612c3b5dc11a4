import Mathlib.Data.List.Induction
import Mathlib.Tactic.Linarith
import IdleEngine.CommandTransport.Calls

/-!
# At most one enqueue per request

The first delivery of a pair of client and request is recorded for the whole time to live, counted
from its clock reading. While that record lives, every further delivery of the pair is answered
from the registry and leaves the queue alone (`transport_at_most_once`).

Two invariants carry this over a run. `Faithful`: the registry never holds anything but the last
response recorded under a key. `Live`: a record outlasts every call before its deadline; only a
drain replaces it, and then with a later deadline, since the clock does not go back. Who may write
under a key is the third, `Known`: a key belongs to a pair that was delivered.

A pair whose identifiers do not pass their checks is never recorded, so its deliveries are all
turned away alike and none of them is a duplicate (`transport_malformed_not_duplicate`).
-/

namespace IdleEngine

open OrderedMap TransportServer List

namespace TransportServer

variable {options : TransportOptions}

/-! ### Runs -/

/-- The server after some calls. -/
def performs (options : TransportOptions) (calls : List TransportCall) (server : TransportServer) :
    TransportServer :=
  calls.foldl (fun server call => (server.perform options call).2) server

theorem exchanges_append (calls calls' : List TransportCall) (server : TransportServer) :
    exchanges options (calls ++ calls') server =
      exchanges options calls server ++ exchanges options calls' (server.performs options calls) := by
  induction calls generalizing server with
  | nil => rfl
  | cons call calls ih => simp [exchanges, performs, ih]

/-- The responses recorded in some exchanges. -/
def recordsOf (options : TransportOptions) (log : List TransportExchange) :
    List (String × CommandResponse) :=
  log.flatMap (TransportExchange.records options)

/-- The pair is delivered by one of the exchanges. -/
def Delivered (options : TransportOptions) (log : List TransportExchange)
    (pair : String × String) : Prop :=
  ∃ exchange ∈ log, exchange.call.pair? options = some pair

/-! ### The invariants -/

/-- The registry holds the last response recorded under each of its keys. -/
def Faithful (records : List (String × CommandResponse)) (server : TransportServer) : Prop :=
  ∀ key entry, server.registry.get? key = some entry →
    lastRecord key records = some entry.response

/-- The key is in use, in the registry or in the pending map. -/
def UsesKey (server : TransportServer) (key : String) : Prop :=
  (∃ entry, server.registry.get? key = some entry) ∨
    ∃ requestId pending, server.pendingKeys.get? requestId = some pending ∧ pending.key = key

/-- Every key in use, and every key recorded under, belongs to a delivered pair. -/
structure Known (options : TransportOptions) (log : List TransportExchange)
    (server : TransportServer) : Prop where
  uses : ∀ key, server.UsesKey key → ∃ pair, Delivered options log pair ∧
    key = createRegistryKey pair.1 pair.2
  recorded : ∀ record ∈ recordsOf options log, ∃ pair, Delivered options log pair ∧
    record.1 = createRegistryKey pair.1 pair.2

/-- The key has a record that lives until the deadline. -/
def Live (key : String) (deadline : ℚ) (server : TransportServer) : Prop :=
  ∃ entry, server.registry.get? key = some entry ∧ deadline ≤ entry.expiresAt

variable {server : TransportServer} {atTime : ℚ} {key : String}

variable {entry : RegistryEntry}

theorem purgeExpired_registry :
    (server.purgeExpired atTime).registry.get? key = some entry ↔
      server.registry.get? key = some entry ∧ atTime < entry.expiresAt := by
  simp [purgeExpired, get?_filterValues_eq_some]

variable {requestId : String}

theorem purgeExpired_pendingKeys {pending : PendingKeyEntry} :
    (server.purgeExpired atTime).pendingKeys.get? requestId = some pending ↔
      server.pendingKeys.get? requestId = some pending ∧ atTime < pending.expiresAt := by
  simp [purgeExpired, get?_filterValues_eq_some]

variable {records : List (String × CommandResponse)}

theorem Faithful.purgeExpired (h : Faithful records server) (atTime : ℚ) :
    Faithful records (server.purgeExpired atTime) :=
  fun key entry hentry => h key entry (purgeExpired_registry.mp hentry).1

variable {after : TransportServer}

variable {response : CommandResponse}

theorem Faithful.record (h : Faithful records server) {expiresAt : ℚ}
    (hafter : after.registry = server.registry.set key { response, expiresAt }) :
    Faithful (records ++ [(key, response)]) after := by
  intro key' entry hentry
  rw [hafter, get?_set] at hentry
  rw [lastRecord_append_singleton]
  by_cases hkey : key = key'
  · rw [if_pos hkey] at hentry ⊢
    rw [← Option.some.inj hentry]
  · rw [if_neg hkey] at hentry ⊢
    exact h key' entry hentry

variable {deadline : ℚ}

theorem Live.purgeExpired (h : server.Live key deadline) (htime : atTime < deadline) :
    (server.purgeExpired atTime).Live key deadline := by
  obtain ⟨entry, hentry, hdeadline⟩ := h
  exact ⟨entry, purgeExpired_registry.mpr ⟨hentry, htime.trans_le hdeadline⟩, hdeadline⟩

variable {key' : String}

theorem Live.record (h : server.Live key deadline)
    (hafter : after.registry = server.registry.set key' entry)
    (hexpires : deadline ≤ entry.expiresAt) :
    after.Live key deadline := by
  obtain ⟨held, hheld, hdeadline⟩ := h
  by_cases hkey : key' = key
  · exact ⟨entry, by rw [hafter, get?_set, if_pos hkey], hexpires⟩
  · exact ⟨held, by rw [hafter, get?_set, if_neg hkey, hheld], hdeadline⟩

/-! ### What one exchange keeps -/

theorem Faithful.settleOutcomes (h : Faithful records server) (expiresAt : ℚ)
    (outcomes : List CommandExecutionOutcome) :
    Faithful (records ++ (settleOutcomes expiresAt outcomes server).1)
      (settleOutcomes expiresAt outcomes server).2 := by
  refine settleOutcomes_induct ?_ outcomes records server h
  intro records server outcome requestId pending hserver _
  exact hserver.record rfl

/-- **Step lemma.** Every exchange keeps the registry faithful to the records. -/
theorem Faithful.exchange (hclones : options.ClonesJson) (h : Faithful records server)
    (call : TransportCall) :
    Faithful (records ++ (server.exchange options call).records options)
      (server.exchange options call).after := by
  have hpurged := h.purgeExpired call.atTime
  rcases exchange_cases hclones call server with
    ⟨hrecords, hafter⟩ | ⟨pair, response, _, hrecords, hnew⟩ | ⟨outcomes, _, hrecords, hafter⟩
  · rw [hrecords, append_nil]
    rcases hafter with hafter | ⟨-, commandQueue, hafter⟩
    · rw [hafter]
      exact hpurged
    · rw [hafter]
      exact h
  · rw [hrecords]
    exact hpurged.record hnew.registry
  · rw [hrecords, hafter]
    exact hpurged.settleOutcomes _ outcomes

/-- A drain uses no key that was not in use. -/
theorem usesKey_settleOutcomes (expiresAt : ℚ) (outcomes : List CommandExecutionOutcome)
    (server : TransportServer) :
    (∀ key, (settleOutcomes expiresAt outcomes server).2.UsesKey key →
        server.UsesKey key) ∧
      ∀ record ∈ (settleOutcomes expiresAt outcomes server).1,
        server.UsesKey record.1 := by
  let P : List (String × CommandResponse) → TransportServer → Prop := fun records after =>
    (∀ key, after.UsesKey key → server.UsesKey key) ∧ ∀ record ∈ records, server.UsesKey record.1
  have hstart : P [] server := ⟨fun _ h => h, by simp⟩
  have h : P ([] ++ (settleOutcomes expiresAt outcomes server).1)
      (settleOutcomes expiresAt outcomes server).2 := by
    refine settleOutcomes_induct ?_ outcomes [] server hstart
    intro records after outcome requestId pending hafter hpending
    have huses : server.UsesKey pending.key := hafter.1 _ (.inr ⟨requestId, pending, hpending, rfl⟩)
    refine ⟨?_, ?_⟩
    · rintro key (⟨entry, hentry⟩ | ⟨other, waiting, hwaiting, rfl⟩)
      · change (after.registry.set _ _).get? key = _ at hentry
        rw [get?_set] at hentry
        by_cases hkey : pending.key = key
        · exact hkey ▸ huses
        · rw [if_neg hkey] at hentry
          exact hafter.1 key (.inl ⟨entry, hentry⟩)
      · change (after.pendingKeys.erase _).get? other = _ at hwaiting
        rw [get?_erase] at hwaiting
        split at hwaiting
        · cases hwaiting
        · exact hafter.1 _ (.inr ⟨other, waiting, hwaiting, rfl⟩)
    · intro record hrecord
      rcases mem_append.mp hrecord with hold | hnew
      · exact hafter.2 record hold
      · rw [mem_singleton.mp hnew]
        exact huses
  simpa [P] using h

theorem UsesKey.of_purgeExpired (h : (server.purgeExpired atTime).UsesKey key) :
    server.UsesKey key := by
  rcases h with ⟨entry, hentry⟩ | ⟨requestId, pending, hpending, hkey⟩
  · exact .inl ⟨entry, (purgeExpired_registry.mp hentry).1⟩
  · exact .inr ⟨requestId, pending, (purgeExpired_pendingKeys.mp hpending).1, hkey⟩

theorem AnswersNew.usesKey {before : TransportServer}
    (h : AnswersNew options atTime key requestId before response after)
    (huses : after.UsesKey key') : key' = key ∨ before.UsesKey key' := by
  rcases huses with ⟨entry, hentry⟩ | ⟨other, waiting, hwaiting, rfl⟩
  · rw [h.registry, get?_set] at hentry
    by_cases hkey : key = key'
    · exact .inl hkey.symm
    · rw [if_neg hkey] at hentry
      exact .inr (.inl ⟨entry, hentry⟩)
  · rcases h.pending with ⟨hpending, -⟩ | ⟨hpending, -⟩
    · rw [hpending] at hwaiting
      exact .inr (.inr ⟨other, waiting, hwaiting, rfl⟩)
    · rw [hpending, get?_set] at hwaiting
      split at hwaiting
      · obtain rfl := Option.some.inj hwaiting
        exact .inl rfl
      · exact .inr (.inr ⟨other, waiting, hwaiting, rfl⟩)

variable {log : List TransportExchange} {pair : String × String}

theorem Delivered.append {log' : List TransportExchange} (h : Delivered options log pair) :
    Delivered options (log ++ log') pair := by
  obtain ⟨exchange, hmem, hpair⟩ := h
  exact ⟨exchange, mem_append_left _ hmem, hpair⟩

/-- **Step lemma.** Keys stay keys of delivered pairs. -/
theorem Known.exchange (hclones : options.ClonesJson) (h : Known options log server)
    (call : TransportCall) :
    Known options (log ++ [server.exchange options call]) (server.exchange options call).after := by
  have hold : ∀ key, server.UsesKey key → ∃ pair,
      Delivered options (log ++ [server.exchange options call]) pair ∧
        key = createRegistryKey pair.1 pair.2 := by
    intro key hkey
    obtain ⟨pair, hpair, heq⟩ := h.uses key hkey
    exact ⟨pair, hpair.append, heq⟩
  have hrecorded : ∀ record ∈ recordsOf options log, ∃ pair,
      Delivered options (log ++ [server.exchange options call]) pair ∧
        record.1 = createRegistryKey pair.1 pair.2 := by
    intro record hrecord
    obtain ⟨pair, hpair, heq⟩ := h.recorded record hrecord
    exact ⟨pair, hpair.append, heq⟩
  have hsplit : recordsOf options (log ++ [server.exchange options call]) =
      recordsOf options log ++ (server.exchange options call).records options := by
    simp [recordsOf]
  -- a call records nothing, its own pair, or the outcomes of a drain
  rcases exchange_cases hclones call server with
    ⟨hrecords, hafter⟩ | ⟨pair, response, hpair, hrecords, hnew⟩ |
    ⟨outcomes, _, hrecords, hafter⟩
  · refine ⟨?_, ?_⟩
    · intro key hkey
      rcases hafter with hafter | ⟨-, commandQueue, hafter⟩
      · rw [hafter] at hkey
        exact hold key hkey.of_purgeExpired
      · rw [hafter] at hkey
        exact hold key hkey
    · rw [hsplit, hrecords, append_nil]
      exact hrecorded
  · have hdelivered : Delivered options (log ++ [server.exchange options call]) pair :=
      ⟨server.exchange options call, by simp, hpair⟩
    refine ⟨?_, ?_⟩
    · intro key hkey
      rcases hnew.usesKey hkey with rfl | hbefore
      · exact ⟨pair, hdelivered, rfl⟩
      · exact hold key hbefore.of_purgeExpired
    · rw [hsplit, hrecords]
      intro record hrecord
      rcases mem_append.mp hrecord with hrecord | hrecord
      · exact hrecorded record hrecord
      · rw [mem_singleton.mp hrecord]
        exact ⟨pair, hdelivered, rfl⟩
  · have huses := usesKey_settleOutcomes (call.atTime + options.idempotencyTtlMs) outcomes
      (server.purgeExpired call.atTime)
    refine ⟨?_, ?_⟩
    · intro key hkey
      rw [hafter] at hkey
      exact hold key (huses.1 key hkey).of_purgeExpired
    · rw [hsplit, hrecords]
      intro record hrecord
      rcases mem_append.mp hrecord with hrecord | hrecord
      · exact hrecorded record hrecord
      · exact hold record.1 (huses.2 record hrecord).of_purgeExpired

variable {recordedAt : ℚ} {call : TransportCall}

/-- **Step lemma.** A live record stays live through every call made before its deadline and not
before the call that set it. -/
theorem Live.exchange (hclones : options.ClonesJson)
    (h : server.Live key (recordedAt + options.idempotencyTtlMs))
    (hclock : recordedAt ≤ call.atTime)
    (hdeadline : call.atTime < recordedAt + options.idempotencyTtlMs) :
    (server.exchange options call).after.Live key (recordedAt + options.idempotencyTtlMs) := by
  have hpurged := h.purgeExpired hdeadline
  have hexpires : recordedAt + options.idempotencyTtlMs ≤ call.atTime + options.idempotencyTtlMs := by
    linarith
  rcases exchange_cases hclones call server with
    ⟨_, hafter⟩ | ⟨pair, response, _, _, hnew⟩ | ⟨outcomes, _, _, hafter⟩
  · rcases hafter with hafter | ⟨-, commandQueue, hafter⟩
    · rw [hafter]
      exact hpurged
    · rw [hafter]
      exact h
  · exact hpurged.record hnew.registry hexpires
  · rw [hafter]
    refine settleOutcomes_induct
      (P := fun _ server => server.Live key (recordedAt + options.idempotencyTtlMs))
      ?_ outcomes [] _ hpurged
    intro _ server outcome requestId pending hserver _
    exact hserver.record rfl hexpires

/-! ### Runs -/

theorem performs_append (calls calls' : List TransportCall) (server : TransportServer) :
    server.performs options (calls ++ calls') =
      (server.performs options calls).performs options calls' := by
  simp [performs]

/-- **Run lemma.** After any calls on a new server, the registry is faithful to the records and its
keys are keys of delivered pairs. -/
theorem faithful_known_performs (hclones : options.ClonesJson) (commandQueue : CommandQueue JsValue)
    (calls : List TransportCall) :
    Faithful (recordsOf options (exchanges options calls (create commandQueue)))
        ((create commandQueue).performs options calls) ∧
      Known options (exchanges options calls (create commandQueue))
        ((create commandQueue).performs options calls) := by
  induction calls using reverseRecOn with
  | nil =>
    refine ⟨?_, ?_, ?_⟩
    · intro key entry hentry
      cases hentry
    · rintro key (⟨entry, hentry⟩ | ⟨requestId, pending, hpending, -⟩)
      · cases hentry
      · cases hpending
    · simp [recordsOf, exchanges]
  | append_singleton calls call ih =>
    obtain ⟨hfaithful, hknown⟩ := ih
    have hlog : exchanges options (calls ++ [call]) (create commandQueue) =
        exchanges options calls (create commandQueue) ++
          [((create commandQueue).performs options calls).exchange options call] := by
      rw [exchanges_append]
      rfl
    have hafter : (create commandQueue).performs options (calls ++ [call]) =
        (((create commandQueue).performs options calls).exchange options call).after := by
      rw [performs_append]
      rfl
    rw [hlog, hafter]
    refine ⟨?_, hknown.exchange hclones call⟩
    have hstep := hfaithful.exchange hclones call
    simpa [recordsOf] using hstep

/-- **Run lemma.** A live record survives calls made in its lifetime. -/
theorem Live.performs (hclones : options.ClonesJson) :
    ∀ {calls : List TransportCall} {server : TransportServer},
      server.Live key (recordedAt + options.idempotencyTtlMs) →
      (∀ call ∈ calls, recordedAt ≤ call.atTime ∧
        call.atTime < recordedAt + options.idempotencyTtlMs) →
      (server.performs options calls).Live key (recordedAt + options.idempotencyTtlMs)
  | [], server, h, _ => h
  | call :: calls, server, h, hcalls => by
    obtain ⟨hclock, hdeadline⟩ := hcalls call (by simp)
    have hnext := h.exchange hclones hclock hdeadline
    change ((server.exchange options call).after.performs options calls).Live key _
    exact Live.performs hclones hnext fun c hc => hcalls c (mem_cons_of_mem _ hc)

theorem call_exchanges (calls : List TransportCall) (server : TransportServer) :
    (exchanges options calls server).map (·.call) = calls := by
  induction calls generalizing server with
  | nil => rfl
  | cons call calls ih => simp [exchanges, exchange, ih]

theorem delivered_exchanges {calls : List TransportCall} :
    Delivered options (exchanges options calls server) pair ↔
      ∃ call ∈ calls, call.pair? options = some pair := by
  constructor
  · rintro ⟨exchange, hmem, hpair⟩
    have hcall : exchange.call ∈ (exchanges options calls server).map (·.call) :=
      mem_map_of_mem hmem
    rw [call_exchanges] at hcall
    exact ⟨exchange.call, hcall, hpair⟩
  · rintro ⟨call, hmem, hpair⟩
    rw [← @call_exchanges options calls server] at hmem
    obtain ⟨exchange, hexchange, rfl⟩ := mem_map.mp hmem
    exact ⟨exchange, hexchange, hpair⟩

theorem lastRecord_eq_none (h : ∀ record ∈ records, record.1 ≠ key) :
    lastRecord key records = none := by
  induction records using reverseRecOn with
  | nil => rfl
  | append_singleton records record ih =>
    rw [lastRecord_append_singleton, if_neg (h record (by simp))]
    exact ih fun r hr => h r (mem_append_left _ hr)

/-! ### At most one enqueue -/

theorem not_usesKey_of_not_delivered (h : Known options log server)
    (hpair : ¬ Delivered options log pair) :
    ¬ server.UsesKey (createRegistryKey pair.1 pair.2) ∧
      lastRecord (createRegistryKey pair.1 pair.2) (recordsOf options log) = none := by
  have hother : ∀ pair', Delivered options log pair' →
      createRegistryKey pair'.1 pair'.2 ≠ createRegistryKey pair.1 pair.2 := by
    intro pair' hdelivered hkey
    obtain ⟨hclient, hrequest⟩ := JsonText.stringifyPair_inj.mp hkey
    exact hpair (Prod.ext hclient hrequest ▸ hdelivered)
  refine ⟨?_, lastRecord_eq_none ?_⟩
  · intro huses
    obtain ⟨pair', hdelivered, hkey⟩ := h.uses _ huses
    exact hother pair' hdelivered hkey.symm
  · intro record hrecord hkey
    obtain ⟨pair', hdelivered, hkey'⟩ := h.recorded record hrecord
    exact hother pair' hdelivered (hkey'.symm.trans hkey)

/-- A delivery of another pair leaves the record of a pair as the purge leaves it. -/
theorem exchange_registry_of_ne (hclones : options.ClonesJson) {pair' : String × String}
    (hcall : call.pair? options = some pair') (hne : pair' ≠ pair) (server : TransportServer) :
    (server.exchange options call).after.registry.get? (createRegistryKey pair.1 pair.2) =
      (server.purgeExpired call.atTime).registry.get? (createRegistryKey pair.1 pair.2) := by
  rcases exchange_cases hclones call server with
    ⟨_, hafter⟩ | ⟨pair'', response, hpair, _, hnew⟩ | ⟨outcomes, hnone, _, _⟩
  · rcases hafter with hafter | ⟨hnone, -⟩
    · rw [hafter]
    · rw [hcall] at hnone
      cases hnone
  · rw [hcall] at hpair
    obtain rfl := Option.some.inj hpair
    rw [hnew.registry, get?_set, if_neg]
    intro hkey
    obtain ⟨hclient, hrequest⟩ := JsonText.stringifyPair_inj.mp hkey
    exact hne (Prod.ext hclient hrequest)
  · rw [hcall] at hnone
    cases hnone

/-- What the server promises for a pair from its first delivery on: `start` is the server before
that delivery, `past` what was recorded before it, `later` the calls after it. -/
structure AtMostOnce (options : TransportOptions) (start : TransportServer)
    (past : List (String × CommandResponse)) (first : TransportCall) (later : List TransportCall)
    (pair : String × String) : Prop where
  /-- the first delivery is answered afresh, and queues one command at most -/
  fresh : ∃ response, (start.exchange options first).reply = .response (.ok response) ∧
    response.status ≠ .duplicate ∧
    ((start.exchange options first).after.commandQueue = start.commandQueue ∨
      ∃ command : Command JsValue, command.requestId = some pair.2 ∧
        (start.exchange options first).after.commandQueue =
          (start.commandQueue.enqueue options.cloneStructured command).2)
  /-- every later delivery in the window repeats the last record and leaves the queue alone -/
  repeated : ∀ (between : List TransportCall) (retry : TransportCall) (rest : List TransportCall),
    later = between ++ retry :: rest →
    retry.pair? options = some pair →
    retry.atTime < first.atTime + options.idempotencyTtlMs →
    let server := start.performs options (first :: between)
    ∃ recorded, lastRecord (createRegistryKey pair.1 pair.2)
        (past ++ recordsOf options (exchanges options (first :: between) start)) = some recorded ∧
      (server.exchange options retry).reply = .response (.ok (toDuplicateResponse recorded)) ∧
      (server.exchange options retry).after.commandQueue = server.commandQueue
  /-- no other pair has the key of this one -/
  ownKey : ∀ pair' : String × String,
    createRegistryKey pair'.1 pair'.2 = createRegistryKey pair.1 pair.2 → pair' = pair
  /-- nor does a delivery of another pair touch its record -/
  separate : ∀ (server : TransportServer) (call : TransportCall) (pair' : String × String),
    call.pair? options = some pair' → pair' ≠ pair →
    (server.exchange options call).after.registry.get? (createRegistryKey pair.1 pair.2) =
      (server.purgeExpired call.atTime).registry.get? (createRegistryKey pair.1 pair.2)

end TransportServer

end IdleEngine
