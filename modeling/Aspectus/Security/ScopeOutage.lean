import Aspectus.Interaction.History
import Aspectus.Security.Coherence

/-!
This module contains what the cache of the scopes of users holds if queries and Redis commands may fail: the
results of queries, unless the default for a query that failed was stored.
-/

namespace Aspectus

open Interaction Machine

/--
What others do to the database and the rest of Redis before an operation. Nobody else writes to the keys of the
scope cache.
-/
structure Others where
  write : Server → Server
  now : ∀ s, (write s).now = s.now
  scopeCache : ∀ s userId,
    (write s).redis (ScopeExpander.cacheKey userId) = s.redis (ScopeExpander.cacheKey userId)

def sharedSemantics (cfg : Config) : Semantics Api Server (Draw × Others) where
  exec o d s := Op.exec cfg o d.1 (d.2.write s)
  advance := Server.advance

inductive ScopeCall where
  | expand (userId : String)
  | invalidate (userId : String)

def ScopeCall.handle : ScopeCall → App (Option String)
  | .expand userId => do
    let scopes ← ScopeExpander.expand userId
    return some scopes
  | .invalidate userId => do
    ScopeExpander.invalidate userId
    return none

abbrev ScopeMachine : Type := Machine Api Server (Draw × Others) ScopeCall (Option String)

abbrev ScopeEntry : Type := Entry Api Server (Draw × Others) ScopeCall (Option String)

abbrev ScopeMachine.Reachable (cfg : Config) (s : Server) (m : ScopeMachine) : Prop :=
  Reaches (sharedSemantics cfg) ScopeCall.handle (init s) m

/--
The query for the scopes of a user has failed in this call.
-/
def QueryFailed (h : List (Event Api)) : Prop :=
  ∃ userId msg, Called h (.role (.selectScopes userId)) (.error msg)

/--
What a call may do: a value is only stored under the key of a user if it consists of the scopes that were found,
where a query that failed finds none, and only calls without a query delete anything.
-/
def ScopeAllowed (h : List (Event Api)) : Op → Prop
  | .cache (.get _) => True
  | .role (.selectScopes _) => True
  | .cache (.set key value _) => ∃ userId r, key = ScopeExpander.cacheKey userId
      ∧ Called h (.role (.selectScopes userId)) r ∧ value = join " " (r.toOption.getD [])
  | .cache (.del _) => ¬QueryFailed h
  | _ => False

theorem ScopeCall.handle_conforms (q : ScopeCall) :
    q.handle.Conforms ScopeAllowed (fun _ _ => True) [] := by
  cases q with
  | expand userId =>
    unfold handle ScopeExpander.expand
    refine ⟨trivial, ?_⟩
    intro r
    cases r with
    | some cached => trivial
    | none =>
      refine ⟨trivial, fun scopes => ⟨?_, fun _ => trivial⟩⟩
      exact ⟨userId, scopes, rfl, List.mem_cons_self, rfl⟩
  | invalidate userId =>
    refine ⟨?_, fun _ => trivial⟩
    rintro ⟨_, _, h⟩
    cases h

/--
The pattern of failures never lets a call store its value after its query has failed.
-/
def OutagesAreNotStored (log : List ScopeEntry) : Prop :=
  ∀ e rest, e :: rest <:+ log → QueryFailed (eventsOf e.thread rest) →
    ∀ key value ttlSecs r d, e.what = .call ⟨.cache (.set key value ttlSecs), r⟩ d → d.1.fault ≠ none

/--
A successful query for the user returned the scopes the text consists of.
-/
def LookedUp (log : List ScopeEntry) (userId text : String) : Prop :=
  ∃ e ∈ log, ∃ scopes d, e.what = .call ⟨.role (.selectScopes userId), (.ok scopes : Result (List String))⟩ d
    ∧ text = join " " scopes

section Steps

variable {cfg : Config} {d : Draw} {s : Server} {o : Op} {userId : String}

theorem Others.cached (others : Others) (s : Server) (userId : String) :
    (others.write s).cached (ScopeExpander.cacheKey userId) = s.cached (ScopeExpander.cacheKey userId) := by
  unfold Server.cached
  rw [others.scopeCache, others.now]

theorem get_store (key : String) : (CacheOp.exec d s (.get key)).2 = s := by
  unfold CacheOp.exec
  dsimp only
  split <;> rfl

theorem set_store {key value : String} {ttlSecs : Nat} (hfault : d.fault ≠ none) :
    (CacheOp.exec d s (.set key value ttlSecs)).2 = s := by
  unfold CacheOp.exec
  dsimp only
  split
  . rfl
  . contradiction

/--
A value that a call brings into the cache was stored by a command that did not fail.
-/
theorem cached_of_allowed {h : List (Event Api)} (hallowed : ScopeAllowed h o) {v : CacheValue}
    (hv : (o.exec cfg d s).2.cached (ScopeExpander.cacheKey userId) = some v)
    : s.cached (ScopeExpander.cacheKey userId) = some v
        ∨ ∃ value ttlSecs, o = .cache (.set (ScopeExpander.cacheKey userId) value ttlSecs) ∧ v = .text value
          ∧ d.fault = none := by
  rcases Server.cached_eq_some.mp hv with ⟨entry, hentry, hlive, hvalue⟩
  rw [(Op.exec_framed cfg d s o).now] at hlive
  rcases Op.exec_redis cfg d s o _ entry hentry with hold | hset | hset | hcounter
  . left
    exact Server.cached_eq_some.mpr ⟨entry, hold, hlive, hvalue⟩
  . rcases hset with ⟨value, ttlSecs, rfl, _, _⟩
    exact hallowed.elim
  . rcases hset with ⟨value, ttlSecs, rfl, _, hnew⟩
    by_cases hfault : d.fault = none
    . right
      rw [hnew] at hvalue
      exact ⟨value, ttlSecs, rfl, hvalue.symm, hfault⟩
    . left
      change (CacheOp.exec d s (.set _ value ttlSecs)).2.cached _ = some v at hv
      rw [set_store hfault] at hv
      exact hv
  . rcases hcounter with ⟨name, bucket, n, hkey, _⟩
    unfold ScopeExpander.cacheKey rateLimitKey at hkey
    rw [String.append_assoc, String.append_assoc] at hkey
    exact absurd hkey (append_ne_append (by decide) (by decide) _ _)

/--
After its query has failed a call leaves the cache as it is, unless it stores something.
-/
theorem cached_of_failed {h : List (Event Api)} (hallowed : ScopeAllowed h o) (hfailed : QueryFailed h)
    (hstores : ∀ key value ttlSecs, o = .cache (.set key value ttlSecs) → d.fault ≠ none)
    : (o.exec cfg d s).2.cached (ScopeExpander.cacheKey userId)
        = s.cached (ScopeExpander.cacheKey userId) := by
  cases o with
  | cache o =>
    cases o with
    | get key =>
      change (CacheOp.exec d s (.get key)).2.cached _ = _
      rw [get_store]
    | set key value ttlSecs =>
      change (CacheOp.exec d s (.set key value ttlSecs)).2.cached _ = _
      rw [set_store (hstores _ _ _ rfl)]
    | del key => exact absurd hfailed hallowed
    | _ => exact hallowed.elim
  | role o =>
    cases o with
    | selectScopes userId' =>
      change (RoleOp.exec cfg d s (.selectScopes userId')).2.cached _ = _
      unfold RoleOp.exec
      rw [Statement.query_store]
    | _ => exact hallowed.elim
  | _ => exact hallowed.elim

end Steps

section Reachable

variable {cfg : Config} {s : Server} {m : ScopeMachine} (h : ScopeMachine.Reachable cfg s m)
  (houtages : OutagesAreNotStored m.log)
include h houtages

/--
The value that an entry stores was returned by the query of the same call.
-/
theorem ScopeMachine.Reachable.returned {e : ScopeEntry} {rest : List ScopeEntry} (he : e :: rest <:+ m.log)
    {userId value : String} {ttlSecs : Nat} {r : Unit} {d : Draw × Others}
    (hw : e.what = .call ⟨.cache (.set (ScopeExpander.cacheKey userId) value ttlSecs), r⟩ d)
    (hfault : d.1.fault = none)
    : LookedUp m.log userId value := by
  rcases Reaches.called ScopeCall.handle_conforms h he hw with ⟨_, _, hallowed⟩
  rcases hallowed with ⟨userId', answer, hkey, hcalled, hvalue⟩
  have hsame : userId = userId' := append_right_injective hkey
  subst hsame
  cases answer with
  | error msg =>
    exact absurd hfault (houtages e rest he ⟨_, msg, hcalled⟩ _ _ _ _ _ hw)
  | ok scopes =>
    rcases mem_eventsOf.mp hcalled with ⟨e', he', _, d', hw'⟩
    exact ⟨e', (suffix_tail he).mem he', scopes, d', hw', hvalue⟩

theorem ScopeMachine.Reachable.provenance {userId : String} {v : CacheValue}
    (hv : m.store.cached (ScopeExpander.cacheKey userId) = some v)
    : s.cached (ScopeExpander.cacheKey userId) = some v
        ∨ ∃ text, v = .text text ∧ LookedUp m.log userId text := by
  by_cases hstart : s.cached (ScopeExpander.cacheKey userId) = some v
  . exact .inl hstart
  . right
    -- Some entry has brought the value into the cache.
    rcases h.became (P := fun s => s.cached (ScopeExpander.cacheKey userId) = some v)
      (fun _ _ h => Server.cached_of_advance h) hstart hv with ⟨e, rest, he, hpre, hpost⟩
    rcases e.post_cases (sharedSemantics cfg) with hsame | ⟨ev, d, hw, hexec⟩
    . rw [hsame] at hpost
      contradiction
    . rw [hexec] at hpost
      rcases Reaches.called ScopeCall.handle_conforms h he hw with ⟨_, _, hallowed⟩
      rcases cached_of_allowed hallowed hpost with hold | ⟨value, ttlSecs, hset, hvalue, hfault⟩
      . rw [Others.cached] at hold
        contradiction
      . rcases ev with ⟨o, r⟩
        subst hset
        exact ⟨value, hvalue, h.returned houtages he hw hfault⟩

/--
A call whose query has failed no longer changes the cache.
-/
theorem ScopeMachine.Reachable.unchanged {e : ScopeEntry} {rest : List ScopeEntry} (he : e :: rest <:+ m.log)
    (hfailed : QueryFailed (eventsOf e.thread rest)) (userId : String)
    : (e.post (sharedSemantics cfg)).cached (ScopeExpander.cacheKey userId)
        = e.pre.cached (ScopeExpander.cacheKey userId) := by
  rcases e.post_cases (sharedSemantics cfg) with hsame | ⟨ev, d, hw, hexec⟩
  . rw [hsame]
  . rcases Reaches.called ScopeCall.handle_conforms h he hw with ⟨_, _, hallowed⟩
    rw [hexec, ← Others.cached d.2 e.pre]
    apply cached_of_failed hallowed hfailed
    intro key value ttlSecs hset
    rcases ev with ⟨o, r⟩
    subst hset
    exact houtages e rest he hfailed _ _ _ _ _ hw

end Reachable

/--
As long as no call stores its value after its query has failed, the cache holds what queries returned, and a
call whose query failed neither stores a value nor replaces one.
-/
theorem scope_cache_holds_results (cfg : Config) (s : Server)
    (hstart : ∀ userId, s.cached (ScopeExpander.cacheKey userId) = none) (m : ScopeMachine)
    (h : ScopeMachine.Reachable cfg s m) (houtages : OutagesAreNotStored m.log) :
    (∀ userId v, m.store.cached (ScopeExpander.cacheKey userId) = some v →
      ∃ text, v = .text text ∧ LookedUp m.log userId text)
    ∧ ∀ e rest, e :: rest <:+ m.log → QueryFailed (eventsOf e.thread rest) →
        ∀ userId, (e.post (sharedSemantics cfg)).cached (ScopeExpander.cacheKey userId)
          = e.pre.cached (ScopeExpander.cacheKey userId) := by
  constructor
  . intro userId v hv
    rcases h.provenance houtages hv with hold | hreturned
    . rw [hstart userId] at hold
      contradiction
    . exact hreturned
  . intro e rest he hfailed userId
    apply h.unchanged houtages he hfailed

namespace Sample

def undisturbed : Others where
  write := id
  now _ := rfl
  scopeCache _ _ := rfl

/--
The scopes of the user are looked up, and the given commands and statements fail.
-/
def lookedUp (faults : List (Option String)) : ScopeMachine :=
  runs (sharedSemantics config) ScopeCall.handle (init roleServer)
    (.start 0 (.expand userId) :: faults.map fun fault => .step 0 ({ draw 1 with fault := fault }, undisturbed))

def cachedScopes (m : ScopeMachine) : Option String :=
  match m.store.cached (ScopeExpander.cacheKey userId) with
  | some (.text text) => some text
  | _ => none

def failsQuery (e : ScopeEntry) : Bool :=
  match e.what with
  | .call ⟨.role (.selectScopes _), .error _⟩ _ => true
  | _ => false

def returnsScopes (e : ScopeEntry) : Bool :=
  match e.what with
  | .call ⟨.role (.selectScopes _), .ok _⟩ _ => true
  | _ => false

theorem outagesAreNotStored_of_check {log : List ScopeEntry} (h : log.any failsQuery = false) :
    OutagesAreNotStored log := by
  intro e rest he hfailed
  rcases hfailed with ⟨_, msg, hcalled⟩
  rcases mem_eventsOf.mp hcalled with ⟨e', he', _, d, hw⟩
  have := List.any_eq_false.mp h e' ((suffix_tail he).mem he')
  simp [failsQuery, hw] at this

theorem cachedScopes_some {m : ScopeMachine} {text : String} (h : cachedScopes m = some text) :
    m.store.cached (ScopeExpander.cacheKey userId) = some (.text text) := by
  unfold cachedScopes at h
  split at h
  . next t ht =>
    injection h with h
    rw [ht, h]
  . contradiction

end Sample

open Sample in
/--
The scopes of the user are cached after the query returned them.
-/
theorem scope_cache_holds_results_healthy :
    LookedUp (lookedUp [none, none, none]).log userId "pandaria:session:read" := by
  have hchecks : cachedScopes (lookedUp [none, none, none]) = some "pandaria:session:read"
      ∧ (lookedUp [none, none, none]).log.any failsQuery = false := by
    decide +kernel
  have h := scope_cache_holds_results config roleServer (fun userId => roleServer_uncached _)
    (lookedUp [none, none, none]) (reaches_runs _ _) (outagesAreNotStored_of_check hchecks.2)
  rcases h.1 _ _ (cachedScopes_some hchecks.1) with ⟨text, htext, hreturned⟩
  injection htext with htext
  rw [htext]
  exact hreturned

open Sample in
/--
The query for the scopes of a user fails, and the empty list is cached instead of them.
-/
theorem scope_cache_holds_outage :
    ¬∀ (cfg : Config) (s : Server), (∀ userId, s.cached (ScopeExpander.cacheKey userId) = none) →
      ∀ m, ScopeMachine.Reachable cfg s m →
      ∀ userId v, m.store.cached (ScopeExpander.cacheKey userId) = some v →
        ∃ text, v = .text text ∧ LookedUp m.log userId text := by
  intro hclaim
  have hchecks : cachedScopes (lookedUp [none, some "connection closed", none]) = some ""
      ∧ (lookedUp [none, some "connection closed", none]).log.any returnsScopes = false := by
    decide +kernel
  rcases hclaim config roleServer (fun userId => roleServer_uncached _)
    (lookedUp [none, some "connection closed", none]) (reaches_runs _ _) _ _
    (cachedScopes_some hchecks.1) with ⟨text, _, e, he, scopes, d, hw, _⟩
  have := List.any_eq_false.mp hchecks.2 e he
  simp [returnsScopes, hw] at this

/--
The user has a scope all along.
-/
example : Sample.roleServer.expansion Sample.config Sample.userId = "pandaria:session:read" := by
  decide +kernel

end Aspectus
