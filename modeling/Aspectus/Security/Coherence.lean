import Aspectus.Security.Sample
import Aspectus.Security.ScopeCache

/-!
This module contains that the cached expansions of scopes are never out of date: a change of a role shows the
next time the scopes of its users are asked for.
-/

namespace Aspectus

open Interaction Prog

/--
The ids a request asks for the scopes of.
-/
def RoleRequest.Asks : RoleRequest → String → Prop
  | .expand userId, u => u = userId
  | _, _ => False

/--
The order of the database is total and transitive.
-/
structure Config.Collates (cfg : Config) : Prop where
  trans : ∀ a b c, cfg.collation a b → cfg.collation b c → cfg.collation a c
  total : ∀ a b, cfg.collation a b || cfg.collation b a

/--
The state some requests lead to that are served one after the other.
-/
abbrev administered (cfg : Config) (vs : List (Visit RoleRequest Draw)) (s : Server) : Server :=
  (serveAll (semantics cfg) (RoleRequest.handle cfg) vs s).2

/--
Every statement and Redis command of the requests succeeds.
-/
abbrev AllSucceed (cfg : Config) (vs : List (Visit RoleRequest Draw)) (s : Server) : Prop :=
  AllCalls (semantics cfg) (RoleRequest.handle cfg) Succeeded vs s

/--
The generator of ids does not return what was asked for before.
-/
def Unguessed (vs : List (Visit RoleRequest Draw)) : Prop :=
  vs.Pairwise fun v v' => ∀ u, v.request.Asks u → ∀ n, (v'.draws n).id ≠ u

section Handle

variable {cfg : Config} {asked : String → Prop}

theorem RoleRequest.handle_spec (q : RoleRequest) :
    Spec cfg asked (Coherent cfg asked nobody) (q.handle cfg)
      fun _ => Coherent cfg (fun u => asked u ∨ q.Asks u) nobody := by
  have hrest : ∀ {p : App RoleAnswer}, Spec cfg asked (Coherent cfg asked nobody) p
      (fun _ => Coherent cfg asked nobody) → Spec cfg asked (Coherent cfg asked nobody) p
      fun _ => Coherent cfg (fun u => asked u ∨ q.Asks u) nobody :=
    fun hp => hp.mono (fun _ => id) fun _ _ hs => hs.mono (fun _ => .inl) fun _ => id
  cases q with
  | createRole req => exact hrest ((create_spec req).bind fun _ => triple_pure fun _ => id)
  | updateRole id req => exact hrest ((update_spec req).bind fun _ => triple_pure fun _ h => h)
  | deleteRole id =>
    exact hrest (Triple.bind (spec_uses coherent_settled delete_still) fun _ => triple_pure fun _ h => h)
  | assignRole userId roleId => exact hrest (assign_spec.bind fun _ => triple_pure fun _ => id)
  | removeRole userId roleId => exact hrest (remove_spec.bind fun _ => triple_pure fun _ => id)
  | createUser req => exact hrest ((createUser_spec req).bind fun _ => triple_pure fun _ => id)
  | register forwardedFor reg => exact hrest ((register_spec reg).bind fun _ => triple_pure fun _ => id)
  | expand userId =>
    refine Triple.bind (M := fun _ => Coherent cfg (fun u => asked u ∨ u = userId) nobody) ?_
      fun _ => triple_pure fun _ => id
    intro draws s hE hs
    exact (expand_spec asked userId _ draws s hE
      ⟨hs.mono (fun _ => .inl) fun _ => id, .inl (.inr rfl), rfl⟩).1

/--
The cache is coherent after any requests.
-/
theorem administered_coherent {vs : List (Visit RoleRequest Draw)} {s : Server}
    (hs : Coherent cfg asked nobody s) (hall : AllSucceed cfg vs s)
    (hnew : ∀ v ∈ vs, ∀ n, ¬asked (v.draws n).id) (hunguessed : Unguessed vs)
    : ∃ asked', Coherent cfg asked' nobody (administered cfg vs s) := by
  induction vs generalizing s asked with
  | nil => exact ⟨asked, hs⟩
  | cons v vs ih =>
    rcases List.pairwise_cons.mp hunguessed with ⟨hfirst, hrest⟩
    have hsteady : ∀ c ∈ trace (semantics cfg) (v.request.handle cfg) v.draws s, Orderly asked c := by
      intro c hc
      rcases draw_of_trace _ hc with ⟨n, hn⟩
      refine ⟨hall.1 c hc, ?_⟩
      rw [hn]
      exact hnew v List.mem_cons_self n
    have hhandled := v.request.handle_spec v.draws s hsteady hs
    refine ih (hhandled.advance v.wait) hall.2 ?_ hrest
    intro v' hv' n
    rintro (hasked | hasks)
    . exact hnew v' (List.mem_cons_of_mem _ hv') n hasked
    . exact hfirst v' hv' _ hasks n rfl

/--
The answer after any requests is the one of the database.
-/
theorem expand_answers {s : Server} (hintact : s.Intact)
    (hcached : ∀ u v, s.cached (ScopeExpander.cacheKey u) = some v →
      v = .text (s.expansion cfg u) ∧ ∃ user, s.users.lookup u = some user)
    {vs : List (Visit RoleRequest Draw)} (hall : AllSucceed cfg vs s) (hunguessed : Unguessed vs)
    {userId : String} {draws : Nat → Draw}
    (hexpand : ∀ c ∈ trace (semantics cfg) (ScopeExpander.expand userId) draws (administered cfg vs s),
      Succeeded c)
    : ((ScopeExpander.expand userId).run (semantics cfg) draws (administered cfg vs s)).1
        =
      (administered cfg vs s).expansion cfg userId := by
  have hs : Coherent cfg (fun _ => False) nobody s :=
    ⟨hintact, fun u v hv => .inr (hcached u v hv).1, fun u v hv => .inr (hcached u v hv).2⟩
  rcases administered_coherent hs hall (fun _ _ _ => id) hunguessed with ⟨asked, hserved⟩
  have hasked : Coherent cfg (fun u => asked u ∨ u = userId) nobody (administered cfg vs s) :=
    hserved.mono (fun _ => .inl) fun _ => id
  exact (expand_spec (fun _ => False) userId _ draws (administered cfg vs s)
    (fun c hc => ⟨hexpand c hc, id⟩) ⟨hasked, .inl (.inr rfl), rfl⟩).2

end Handle

/--
After any sequence of requests that change roles and their assignments, that create users or that ask for
scopes, with any waits between them, the scopes of a user are exactly the names of the scopes of the roles the
user currently has, without duplicates and in the order of the database, whether or not they come from the
cache. All statements and Redis commands have to succeed, and the generator of ids must not return an id that
somebody asked for before.
-/
theorem scopes_coherent (cfg : Config) (hcollation : cfg.Collates) (s : Server) (hintact : s.Intact)
    (hcached : ∀ u v, s.cached (ScopeExpander.cacheKey u) = some v →
      v = .text (s.expansion cfg u) ∧ ∃ user, s.users.lookup u = some user)
    (vs : List (Visit RoleRequest Draw)) (hall : AllSucceed cfg vs s) (hunguessed : Unguessed vs)
    (userId : String) (draws : Nat → Draw)
    (hexpand : ∀ c ∈ trace (semantics cfg) (ScopeExpander.expand userId) draws (administered cfg vs s),
      Succeeded c)
    : ∃ names : List String,
        ((ScopeExpander.expand userId).run (semantics cfg) draws (administered cfg vs s)).1 = join " " names
          ∧ names.Nodup
          ∧ names.Pairwise (fun a b => cfg.collation a b = true)
          ∧ ∀ name, name ∈ names ↔ (administered cfg vs s).Granted userId name :=
  ⟨(administered cfg vs s).scopeNames cfg userId,
    expand_answers hintact hcached hall hunguessed hexpand, nodup_scopeNames cfg,
    List.pairwise_mergeSort hcollation.trans hcollation.total _, fun _ => mem_scopeNames⟩

instance (c : Interaction.Call Api Draw) : Decidable (Succeeded c) :=
  inferInstanceAs (Decidable (_ ∧ _))

namespace Sample

def reviewer : String :=
  "role_reviewer"

/--
A deployment whose user has a role with one scope.
-/
def roleServer : Server :=
  { server with
    roles := (∅ : Table String Role).insert reviewer ⟨"reviewer", none, .user, false, false⟩
    scopes := (∅ : Table String Scope).insert "sc_pa_session_read" ⟨"pandaria:session:read"⟩
    rolesScopes := (∅ : Table String RoleScope).insert "rs1" ⟨reviewer, "sc_pa_session_read"⟩
    usersRoles := (∅ : Table String UserRole).insert "ur1" ⟨userId, reviewer⟩ }

def reviewerScopes (scopes : List String) : roles.UpdateRoleRequest :=
  ⟨none, "user", scopes⟩

/--
The scopes of the user are asked for just before its role is changed.
-/
def roleVisits : List (Visit RoleRequest Draw) := [
  ⟨.expand userId, draw, 1000000⟩,
  ⟨.updateRole reviewer (reviewerScopes ["pandaria:session:delete", "constell:agent:read"]),
    fun n => draw (n + 10), 1000000⟩
]

theorem draw_id_ne (n : Nat) : (draw n).id ≠ userId := by
  intro h
  have htake := congrArg (fun t : String => t.toList.take 5) h
  simp [draw, userId] at htake

theorem roleServer_intact : roleServer.Intact := by
  constructor
  . intro id ur h
    have hmem := Table.mem_entries.mpr h
    have hentries : roleServer.usersRoles.entries = [⟨"ur1", ⟨userId, reviewer⟩⟩] := rfl
    rw [hentries, List.mem_singleton] at hmem
    cases hmem
    exact ⟨_, rfl⟩
  . intro id rs h
    have hmem := Table.mem_entries.mpr h
    have hentries : roleServer.rolesScopes.entries = [⟨"rs1", ⟨reviewer, "sc_pa_session_read"⟩⟩] := rfl
    rw [hentries, List.mem_singleton] at hmem
    cases hmem
    exact ⟨_, rfl⟩

theorem roleServer_uncached (key : String) : roleServer.cached key = none := by
  rfl

theorem roleVisits_succeed : AllSucceed config roleVisits roleServer := by
  refine ⟨?_, ?_, trivial⟩
  . decide +kernel
  . decide +kernel

theorem roleVisits_unguessed : Unguessed roleVisits := by
  refine List.pairwise_pair.mpr ?_
  rintro u rfl n
  exact draw_id_ne (n + 10)

theorem expand_succeeds : ∀ c ∈ trace (semantics config) (ScopeExpander.expand userId) draw
    (administered config roleVisits roleServer), Succeeded c := by
  decide +kernel

theorem config_collates : config.Collates := by
  constructor
  . intro a b c hab hbc
    unfold config at *
    simp only [decide_eq_true_eq] at *
    exact String.le_trans hab hbc
  . intro a b
    unfold config
    simp only [Bool.or_eq_true, decide_eq_true_eq]
    exact String.le_total a b

end Sample

open Sample in
/--
The scopes that were cached are not answered any more after the role was changed.
-/
theorem scopes_coherent_reviewer :
    ∃ names : List String,
      ((ScopeExpander.expand userId).run (semantics config) draw (administered config roleVisits
        roleServer)).1 = join " " names
        ∧ names.Nodup
        ∧ names.Pairwise (fun a b => config.collation a b = true)
        ∧ ∀ name, name ∈ names ↔ (administered config roleVisits roleServer).Granted userId name :=
  scopes_coherent config config_collates roleServer roleServer_intact
    (fun _ _ hv => absurd ((roleServer_uncached _).symm.trans hv) nofun) roleVisits
    roleVisits_succeed roleVisits_unguessed userId draw expand_succeeds

end Aspectus
