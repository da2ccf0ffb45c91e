import Aspectus.Discipline.Parts
import Aspectus.Interaction.Triple
import Aspectus.Security.Scopes

/-!
This module contains what the handlers do to the cached expansions of scopes: whenever they change the
scopes of a user, they are done with it only after the cached expansion is gone.
-/

namespace Aspectus

open Interaction Statement Prog

/--
A statement or Redis command of a run that neither was refused nor failed.
-/
def Succeeded (c : Interaction.Call Api Draw) : Prop :=
  c.draw.fault = none ∧ c.op.succeeded c.res = true

theorem Succeeded.role {o : RoleOp} {d : Draw} {r : o.Res} (h : Succeeded ⟨.role o, d, r⟩) :
    o.succeeded r = true :=
  h.2

theorem cacheKey_injective {u u' : String} (h : ScopeExpander.cacheKey u = ScopeExpander.cacheKey u') :
    u = u' :=
  append_right_injective h

/--
Whether an operation stores a text or a response in the cache.
-/
def Op.Stores : Op → Prop
  | .cache (.set ..) => True
  | .cache (.setJson ..) => True
  | _ => False

/--
The expansions that are cached are those of the database, except for the users in `stale`. They are cached for
users, and for some ids that were `asked` for although there is no such user.
-/
structure Coherent (cfg : Config) (asked stale : String → Prop) (s : Server) : Prop where
  intact : s.Intact
  cached : ∀ u v, s.cached (ScopeExpander.cacheKey u) = some v →
    stale u ∨ v = .text (s.expansion cfg u)
  known : ∀ u v, s.cached (ScopeExpander.cacheKey u) = some v →
    asked u ∨ ∃ user, s.users.lookup u = some user

def nobody (_ : String) : Prop :=
  False

section Steps

variable {cfg : Config} {asked asked' stale stale' : String → Prop} {s : Server} {d : Draw} {o : Op}

theorem Coherent.mono (h : Coherent cfg asked stale s) (hasked : ∀ u, asked u → asked' u)
    (hstale : ∀ u, stale u → stale' u) : Coherent cfg asked' stale' s :=
  ⟨h.intact, fun u v hv => (h.cached u v hv).imp_left (hstale u),
    fun u v hv => (h.known u v hv).imp_left (hasked u)⟩

/--
Nothing is stale about users for whom nothing is cached.
-/
theorem Coherent.of_uncached (h : Coherent cfg asked stale s)
    (huncached : ∀ u, stale u → stale' u ∨ s.cached (ScopeExpander.cacheKey u) = none)
    : Coherent cfg asked stale' s := by
  refine ⟨h.intact, ?_, h.known⟩
  intro u v hv
  rcases h.cached u v hv with hu | heq
  . rcases huncached u hu with hu | hnone
    . exact .inl hu
    . rw [hnone] at hv
      contradiction
  . exact .inr heq

theorem cached_of_exec (hstore : ¬o.Stores) {u : String} {v : CacheValue}
    (h : (o.exec cfg d s).2.cached (ScopeExpander.cacheKey u) = some v)
    : s.cached (ScopeExpander.cacheKey u) = some v := by
  rcases Op.exec_cached h with hold | ⟨value, ttl, rfl⟩ | ⟨value, ttl, rfl⟩ | ⟨name, bucket, hkey⟩
  . exact hold
  . exact absurd trivial hstore
  . exact absurd trivial hstore
  . unfold ScopeExpander.cacheKey rateLimitKey at hkey
    rw [String.append_assoc, String.append_assoc] at hkey
    exact absurd hkey (append_ne_append (by decide) (by decide) _ _)

theorem lookup_of_exec {u : String} (h : ∃ user, s.users.lookup u = some user) :
    ∃ user, (o.exec cfg d s).2.users.lookup u = some user := by
  rcases h with ⟨user, huser⟩
  rcases (Op.exec_evolves d s cfg o).users u user huser with ⟨user', huser', _⟩
  exact ⟨user', huser'⟩

/--
An operation only makes the users stale whose expansions it changes.
-/
theorem Coherent.exec (h : Coherent cfg asked stale s) (hstore : ¬o.Stores)
    (htouches : ∀ u, o.Touches s u → stale u) : Coherent cfg asked stale (o.exec cfg d s).2 := by
  have hstep : ScopesStep cfg (o.Touches s) s (o.exec cfg d s).2 := Op.exec_scopesStep o h.intact
  rcases hstep with ⟨hintact, hsame⟩
  refine ⟨hintact, ?_, ?_⟩
  . intro u v hv
    by_cases hu : o.Touches s u
    . exact .inl (htouches u hu)
    . rw [hsame u hu]
      exact h.cached u v (cached_of_exec hstore hv)
  . intro u v hv
    exact (h.known u v (cached_of_exec hstore hv)).imp_right lookup_of_exec

theorem Coherent.advance (h : Coherent cfg asked stale s) (n : Nat) :
    Coherent cfg asked stale (s.advance n) :=
  ⟨⟨h.intact.roles, h.intact.scopes⟩, fun u v hv => h.cached u v (Server.cached_of_advance hv),
    fun u v hv => h.known u v (Server.cached_of_advance hv)⟩

end Steps

/--
An operation that neither stores anything in the cache nor changes the expansion of any user.
-/
def Op.Still (o : Op) : Prop :=
  ¬o.Stores ∧ ∀ s u, ¬o.Touches s u

/--
What all operations keep that are still.
-/
def Settled (cfg : Config) (P : Server → Prop) : Prop :=
  ∀ o d s, Op.Still o → P s → P (o.exec cfg d s).2

section Settled

variable {cfg : Config} {asked stale : String → Prop} {userId : String}

theorem coherent_settled : Settled cfg (Coherent cfg asked stale) :=
  fun _ _ s ho h => h.exec ho.1 fun u hu => absurd hu (ho.2 s u)

theorem uncached_settled : Settled cfg fun s => s.cached (ScopeExpander.cacheKey userId) = none := by
  intro o d s ho h
  rw [Option.eq_none_iff_forall_ne_some] at h ⊢
  intro v hv
  exact h v (cached_of_exec ho.1 hv)

theorem exists_settled : Settled cfg fun s => ∃ user, s.users.lookup userId = some user :=
  fun _ _ _ _ h => lookup_of_exec h

theorem Settled.and {P P' : Server → Prop} (h : Settled cfg P) (h' : Settled cfg P') :
    Settled cfg fun s => P s ∧ P' s :=
  fun o d s ho hs => ⟨h o d s ho hs.1, h' o d s ho hs.2⟩

end Settled

section Triples

variable {cfg : Config} {asked stale : String → Prop}

/--
Every statement and Redis command succeeds, and no id is generated that was asked for before.
-/
def Orderly (asked : String → Prop) (c : Interaction.Call Api Draw) : Prop :=
  Succeeded c ∧ ¬asked c.draw.id

abbrev Spec (cfg : Config) (asked : String → Prop) {α : Type} (P : Server → Prop) (p : App α)
    (Q : α → Server → Prop) : Prop :=
  Triple (semantics cfg) (Orderly asked) P p Q

variable {α β : Type} {P : Server → Prop} {Q : β → Server → Prop}

theorem spec_still {o : Op} {f : o.Res → App β} (hP : Settled cfg P) (ho : o.Still)
    (hf : ∀ r, Spec cfg asked P (f r) Q) : Spec cfg asked P (perform o >>= f) Q :=
  triple_perform_bind (M := fun _ => P) (fun d s _ hs => hP o d s ho hs) hf

/--
The rule for an operation that keeps the precondition and succeeds.
-/
theorem spec_op {o : Op} {f : o.Res → App β} (hP : ∀ d s, P s → P (o.exec cfg d s).2)
    (hf : ∀ r, o.succeeded r = true → Spec cfg asked P (f r) Q)
    : Spec cfg asked P (perform o >>= f) Q := by
  refine triple_perform_bind (M := fun r s => o.succeeded r = true ∧ P s) ?_ ?_
  . intro d s hE hs
    exact ⟨hE.1.2, hP d s hs⟩
  . intro r
    exact triple_of_imp (fun _ hs => hs.1) fun hr => (hf r hr).mono (fun _ hs => hs.2) fun _ _ => id

theorem spec_uses {p : App α} (hP : Settled cfg P) (hp : p.Uses Op.Still) :
    Spec cfg asked P p fun _ => P :=
  hp.triple fun o d s ho hs => hP o d s ho hs

theorem Coherent.set {s : Server} {u : String} {ttlSecs : Nat} (h : Coherent cfg asked stale s)
    (hknown : asked u ∨ ∃ user, s.users.lookup u = some user)
    : Coherent cfg asked stale
        (s.setEx (ScopeExpander.cacheKey u) (.text (s.expansion cfg u)) ttlSecs) := by
  have hset : s.setEx (ScopeExpander.cacheKey u) (.text (s.expansion cfg u)) ttlSecs
      = { s with redis :=
        (s.setEx (ScopeExpander.cacheKey u) (.text (s.expansion cfg u)) ttlSecs).redis } := by
    unfold Server.setEx
    split <;> rfl
  have hcached : ∀ u' v, (s.setEx (ScopeExpander.cacheKey u) (.text (s.expansion cfg u))
      ttlSecs).cached (ScopeExpander.cacheKey u') = some v →
      s.cached (ScopeExpander.cacheKey u') = some v ∨ (u' = u ∧ v = .text (s.expansion cfg u)) := by
    intro u' v hv
    rcases Server.cached_eq_some.mp hv with ⟨entry, hentry, hlive, rfl⟩
    rcases setEx_redis hentry with hold | ⟨hkey, _, rfl⟩
    . refine .inl (Server.cached_eq_some.mpr ⟨entry, hold, ?_, rfl⟩)
      rw [hset] at hlive
      exact hlive
    . exact .inr ⟨cacheKey_injective hkey, rfl⟩
  refine ⟨?_, ?_, ?_⟩
  . rw [hset]
    exact ⟨h.intact.roles, h.intact.scopes⟩
  . intro u' v hv
    rcases hcached u' v hv with hold | ⟨rfl, rfl⟩
    . rw [hset]
      exact h.cached u' v hold
    . rw [hset]
      exact .inr rfl
  . intro u' v hv
    rcases hcached u' v hv with hold | ⟨rfl, _⟩
    . rw [hset]
      exact h.known u' v hold
    . rw [hset]
      exact hknown

/--
After an invalidation nothing is stale about the user.
-/
theorem invalidate_spec (u : String) :
    Spec cfg asked (Coherent cfg asked stale) (ScopeExpander.invalidate u)
      fun _ => Coherent cfg asked fun u' => stale u' ∧ u' ≠ u := by
  unfold ScopeExpander.invalidate
  refine triple_perform fun d s hE hs => ?_
  have hexec : ((semantics cfg).exec (.cache (.del (ScopeExpander.cacheKey u))) d s).2
      = s.del (ScopeExpander.cacheKey u) := by
    change (CacheOp.exec d s _).2 = _
    unfold CacheOp.exec
    dsimp only
    rw [hE.1.1]
  have hkept : Coherent cfg asked stale
      ((semantics cfg).exec (.cache (.del (ScopeExpander.cacheKey u))) d s).2 :=
    hs.exec id fun _ => False.elim
  refine hkept.of_uncached fun u' hu' => ?_
  by_cases hne : u' = u
  . subst hne
    right
    rw [hexec]
    unfold Server.cached
    rw [Server.del_redis_self]
  . exact .inl ⟨hu', hne⟩

/--
A cached expansion is the one of the database.
-/
theorem expand_spec (generated : String → Prop) (u text : String) :
    Spec cfg generated
      (fun s => Coherent cfg asked nobody s ∧ (asked u ∨ ∃ user, s.users.lookup u = some user)
        ∧ s.expansion cfg u = text)
      (ScopeExpander.expand u)
      fun r s => Coherent cfg asked nobody s ∧ r = text := by
  have hsettled : Settled cfg fun s => Coherent cfg asked nobody s
      ∧ (asked u ∨ ∃ user, s.users.lookup u = some user) ∧ s.expansion cfg u = text := by
    intro o d s ho hs
    have hstep : ScopesStep cfg (o.Touches s) s (o.exec cfg d s).2 := Op.exec_scopesStep o hs.1.intact
    exact ⟨coherent_settled o d s ho hs.1, hs.2.1.imp_right lookup_of_exec,
      (hstep.2 u (ho.2 s u)).trans hs.2.2⟩
  unfold ScopeExpander.expand
  refine triple_perform_bind (M := fun (r : Option String) s => (Coherent cfg asked nobody s
    ∧ (asked u ∨ ∃ user, s.users.lookup u = some user) ∧ s.expansion cfg u = text)
      ∧ ∀ t, r = some t → t = text) ?_ ?_
  . intro d s hE hs
    refine ⟨hsettled _ d s ⟨id, fun _ _ => id⟩ hs, ?_⟩
    change ∀ t, (CacheOp.exec d s (.get (ScopeExpander.cacheKey u))).1 = some t → t = text
    unfold CacheOp.exec
    rw [hE.1.1]
    dsimp only
    split
    . next t _ hcached =>
      rintro _ ⟨rfl⟩
      rcases hs.1.cached u _ hcached with hstale | heq
      . exact hstale.elim
      . injection heq with heq
        exact heq.trans hs.2.2
    . nofun
  . intro r
    cases r with
    | some t => exact triple_pure fun s hs => ⟨hs.1.1, hs.2 t rfl⟩
    | none =>
      refine triple_perform_bind (M := fun (r : Result (List String)) s => (Coherent cfg asked nobody s
        ∧ (asked u ∨ ∃ user, s.users.lookup u = some user) ∧ s.expansion cfg u = text)
          ∧ join " " (r.toOption.getD []) = text) ?_ ?_
      . intro d s hE hs
        refine ⟨hsettled _ d s ⟨id, fun _ _ => id⟩ hs.1, ?_⟩
        have hok : ((semantics cfg).exec (.role (.selectScopes u)) d s).1.isOk = true := hE.1.role
        cases hres : ((semantics cfg).exec (.role (.selectScopes u)) d s).1 with
        | error e =>
          rw [hres] at hok
          contradiction
        | ok names =>
          have hnames := query_ok hres
          rw [selectScopes_eq] at hnames
          injection hnames with hnames
          subst hnames
          exact hs.1.2.2
      . intro r
        refine triple_perform_bind (M := fun _ s => Coherent cfg asked nobody s
          ∧ join " " (r.toOption.getD []) = text) ?_ fun _ => triple_pure fun s hs => hs
        rintro d s hE ⟨⟨hs, hknown, hexpansion⟩, htext⟩
        refine ⟨?_, htext⟩
        have hexec : ((semantics cfg).exec (.cache (.set (ScopeExpander.cacheKey u)
            (join " " (r.toOption.getD [])) 60)) d s).2
            = s.setEx (ScopeExpander.cacheKey u) (.text (s.expansion cfg u)) 60 := by
          change (CacheOp.exec d s _).2 = _
          unfold CacheOp.exec
          dsimp only
          rw [hE.1.1, htext, hexpansion]
        exact hexec ▸ hs.set hknown

end Triples

section Roles

variable {cfg : Config} {asked : String → Prop} {roleId userId : String}
variable {K : Table String UserRole → Prop}

theorem exec_usersRoles {o : Op} {d : Draw} {s : Server}
    (hdefault : ∀ id u r, o ≠ .role (.assignDefault id u r))
    (hassign : ∀ id u r, o ≠ .role (.assign id u r)) (hremove : ∀ u r, o ≠ .role (.remove u r))
    : (o.exec cfg d s).2.usersRoles = s.usersRoles := by
  by_cases hgroup : ∃ o', o = .role o'
  . rcases hgroup with ⟨o', rfl⟩
    change (o'.exec cfg d s).2.usersRoles = _
    cases o' with
    | assignDefault id u r => exact absurd rfl (hdefault id u r)
    | assign id u r => exact absurd rfl (hassign id u r)
    | remove u r => exact absurd rfl (hremove u r)
    | insert id name description roleType =>
      apply run_store (P := fun s' : Server => s'.usersRoles = s.usersRoles) rfl
      intro _ s' h
      rcases insertRole_ok h with ⟨_, roles, _, rfl⟩
      rfl
    | update id description roleType =>
      apply run_store (P := fun s' : Server => s'.usersRoles = s.usersRoles) rfl
      intro _ s' h
      rcases updateRole_ok h with ⟨_, _, _, _, rfl⟩
      rfl
    | delete id =>
      apply run_store (P := fun s' : Server => s'.usersRoles = s.usersRoles) rfl
      intro _ s' h
      rcases deleteRole_ok h with ⟨_, rfl, _⟩ | ⟨_, _, rfl⟩ <;> rfl
    | deleteScopes id =>
      apply run_store (P := fun s' : Server => s'.usersRoles = s.usersRoles) rfl
      intro _ s' h
      cases h
      rfl
    | addScope id roleId scopeId =>
      apply run_store (P := fun s' : Server => s'.usersRoles = s.usersRoles) rfl
      intro _ s' h
      rcases addRoleScope_ok h with ⟨rfl, _⟩ | ⟨_, _, _, rolesScopes, _, rfl⟩ <;> rfl
    | insertScope id name =>
      apply run_store (P := fun s' : Server => s'.usersRoles = s.usersRoles) rfl
      intro _ s' h
      rcases insertScope_ok h with ⟨_, scopes, _, _, _, rfl⟩
      rfl
    | _ =>
      change (query _ _ _ s).2.usersRoles = _
      rw [query_store]
  . exact (Op.exec_framed cfg d s o).usersRoles (by simpa using hgroup)

/--
Only the users with the role are stale.
-/
def RoleStale (cfg : Config) (asked : String → Prop) (K : Table String UserRole → Prop) (roleId : String)
    (s : Server) : Prop :=
  Coherent cfg asked (fun u => s.HasRole u roleId) s ∧ K s.usersRoles

theorem RoleStale.exec {o : Op} {d : Draw} {s : Server} (h : RoleStale cfg asked K roleId s)
    (hstore : ¬o.Stores) (hkeeps : (o.exec cfg d s).2.usersRoles = s.usersRoles)
    (htouches : ∀ u, o.Touches s u → s.HasRole u roleId)
    : RoleStale cfg asked K roleId (o.exec cfg d s).2 := by
  constructor
  . refine (h.1.exec hstore htouches).mono (fun _ => id) fun u hu => ?_
    unfold Server.HasRole at hu ⊢
    rw [hkeeps]
    exact hu
  . rw [hkeeps]
    exact h.2

theorem roleStale_settled : Settled cfg (RoleStale cfg asked K roleId) := by
  intro o d s ho hs
  refine hs.exec ho.1 (exec_usersRoles ?_ ?_ ?_) fun u hu => absurd hu (ho.2 s u)
  . rintro id u r rfl
    exact ho.2 s u rfl
  . rintro id u r rfl
    exact ho.2 s u rfl
  . rintro u r rfl
    exact ho.2 s u rfl

/--
The scopes of a role are inserted while its users are stale.
-/
theorem insertRoleScopes_spec (scopes : List String) :
    Spec cfg asked (RoleStale cfg asked K roleId) (roles.insertRoleScopes roleId scopes)
      fun r s => r.isOk = true ∧ RoleStale cfg asked K roleId s := by
  have hscopeId : ∀ scope, Spec cfg asked (RoleStale cfg asked K roleId) (roles.scopeId scope)
      fun r s => r.isOk = true ∧ RoleStale cfg asked K roleId s := by
    intro scope
    unfold roles.scopeId
    refine spec_op (fun d s hs => roleStale_settled _ d s ⟨id, fun _ _ => id⟩ hs) fun r hr => ?_
    rcases r with e | _ | id'
    . exact absurd hr Bool.false_ne_true
    . refine spec_still roleStale_settled ⟨id, fun _ _ => id⟩ fun id' => ?_
      refine spec_op (fun d s hs => roleStale_settled _ d s ⟨id, fun _ _ => id⟩ hs) fun r hr => ?_
      cases r with
      | error e => exact absurd hr Bool.false_ne_true
      | ok _ => exact triple_pure fun s hs => ⟨rfl, hs⟩
    . exact triple_pure fun s hs => ⟨rfl, hs⟩
  induction scopes with
  | nil => exact triple_pure fun s hs => ⟨rfl, hs⟩
  | cons scope scopes ih =>
    unfold roles.insertRoleScopes
    refine (hscopeId scope).bind fun r => triple_of_imp (fun _ hs => hs.1) fun hr => ?_
    refine Triple.mono ?_ (fun _ hs => hs.2) fun _ _ => id
    cases r with
    | error e => exact absurd hr Bool.false_ne_true
    | ok scopeId =>
      refine spec_still roleStale_settled ⟨id, fun _ _ => id⟩ fun id' => ?_
      refine spec_op (fun d s hs => hs.exec id (exec_usersRoles (by simp) (by simp) (by simp)) fun _ => id)
        fun r hr => ?_
      cases r with
      | error e => exact absurd hr Bool.false_ne_true
      | ok _ => exact ih

theorem invalidateUsers_spec (us : List String) :
    Spec cfg asked (Coherent cfg asked (· ∈ us)) (roles.invalidateUsers us)
      fun _ => Coherent cfg asked nobody := by
  induction us with
  | nil => exact triple_pure fun s hs => hs.mono (fun _ => id) fun u hu => absurd hu List.not_mem_nil
  | cons u us ih =>
    unfold roles.invalidateUsers
    refine (invalidate_spec u).bind fun _ => ih.mono (fun s hs => ?_) fun _ _ => id
    exact hs.mono (fun _ => id) fun u' hu' => (List.mem_cons.mp hu'.1).resolve_left hu'.2

/--
Afterwards nobody is stale: all users with the role are invalidated.
-/
theorem invalidateUsersWithRole_spec :
    Spec cfg asked (RoleStale cfg asked K roleId) (roles.invalidateUsersWithRole roleId)
      fun _ => Coherent cfg asked nobody := by
  unfold roles.invalidateUsersWithRole
  refine triple_perform_bind (M := fun (r : Result (List String)) s =>
    Coherent cfg asked (· ∈ r.toOption.getD []) s) ?_ ?_
  . intro d s hE hs
    have hkept : Coherent cfg asked (fun u => s.HasRole u roleId)
        ((Op.role (.selectUsers roleId)).exec cfg d s).2 :=
      hs.1.exec id fun _ => False.elim
    have hok : ((semantics cfg).exec (.role (.selectUsers roleId)) d s).1.isOk = true := hE.1.role
    cases hres : ((semantics cfg).exec (.role (.selectUsers roleId)) d s).1 with
    | error e =>
      rw [hres] at hok
      contradiction
    | ok us =>
      have hus := query_ok hres
      injection hus with hus
      subst hus
      exact hkept.mono (fun _ => id) fun u hu => mem_roleUsers.mpr hu
  . intro r
    apply invalidateUsers_spec

theorem auditEvent_still (params : AuditAuthParams) : (auditEvent params).Uses Op.Still :=
  auditEvent_uses ⟨id, fun _ _ => id⟩ ⟨id, fun _ _ => id⟩ fun _ _ _ _ => ⟨id, fun _ _ => id⟩

theorem respond_still (status : Nat) (id : String) (role : Role) (action : String)
    (metadata : List (String × Json)) : (roles.respond status id role action metadata).Uses Op.Still :=
  respondRole_uses ⟨fun h => h, fun _ _ h => h⟩ fun params _ => auditEvent_still params

theorem replaceScopes_spec (role : Role) (scopes : List String) :
    Spec cfg asked (Coherent cfg asked nobody) (roles.replaceScopes roleId role scopes)
      fun _ => Coherent cfg asked nobody := by
  unfold roles.replaceScopes
  refine Triple.mono (P := RoleStale cfg asked (fun _ => True) roleId) ?_
    (fun s hs => ⟨hs.mono (fun _ => id) fun _ => False.elim, trivial⟩) fun _ _ => id
  refine spec_op (fun d s hs => hs.exec id (exec_usersRoles (by simp) (by simp) (by simp)) fun _ => id)
    fun r hr => ?_
  cases r with
  | error e => exact absurd hr Bool.false_ne_true
  | ok _ =>
    refine (insertRoleScopes_spec scopes).bind fun r => triple_of_imp (fun _ hs => hs.1) fun hr => ?_
    cases r with
    | error e => exact absurd hr Bool.false_ne_true
    | ok _ =>
      refine Triple.bind (invalidateUsersWithRole_spec.mono (fun _ hs => hs.2) fun _ _ => id) fun _ => ?_
      exact spec_uses coherent_settled (respond_still ..)

theorem update_spec (req : roles.UpdateRoleRequest) :
    Spec cfg asked (Coherent cfg asked nobody) (roles.update roleId req)
      fun _ => Coherent cfg asked nobody := by
  unfold roles.update
  split
  . exact triple_pure fun _ => id
  . exact triple_pure fun _ => id
  . next roleType =>
    unfold roles.updateRole
    refine spec_still coherent_settled ⟨id, fun _ _ => id⟩ fun r => ?_
    rcases r with e | _ | role
    . exact triple_pure fun _ => id
    . exact triple_pure fun _ => id
    . dsimp only
      split
      . exact triple_pure fun _ => id
      . refine spec_still coherent_settled ⟨id, fun _ _ => id⟩ fun r => ?_
        cases r with
        | error e => exact triple_pure fun _ => id
        | ok role => apply replaceScopes_spec

/--
Nobody has a role that was just created.
-/
theorem insertRole_spec (req : roles.CreateRoleRequest) (roleType : RoleType) :
    Spec cfg asked (Coherent cfg asked nobody) (roles.insertRole req roleType)
      fun _ => Coherent cfg asked nobody := by
  unfold roles.insertRole
  refine spec_still coherent_settled ⟨id, fun _ _ => id⟩ fun roleId => ?_
  refine triple_perform_bind (M := fun r s => Op.succeeded (.role (.insert roleId req.name
    req.description roleType)) r = true
      ∧ RoleStale cfg asked (fun t => ∀ id ur, t.lookup id = some ur → ur.roleId ≠ roleId) roleId s) ?_ ?_
  . intro d s hE hs
    refine ⟨hE.1.2, ?_⟩
    have hstale : RoleStale cfg asked (fun t => t = s.usersRoles) roleId s :=
      ⟨hs.mono (fun _ => id) fun _ => False.elim, rfl⟩
    have hok : ((semantics cfg).exec (.role (.insert roleId req.name req.description roleType)) d
      s).1.isOk = true := hE.1.role
    cases hres : ((semantics cfg).exec (.role (.insert roleId req.name req.description roleType)) d
      s).1 with
    | error e =>
      rw [hres] at hok
      contradiction
    | ok role =>
      rcases insertRole_ok (run_ok hres) with ⟨_, roles, hroles, _⟩
      have hkept : RoleStale cfg asked (fun t => t = s.usersRoles) roleId
          ((Op.role (.insert roleId req.name req.description roleType)).exec cfg d s).2 :=
        roleStale_settled _ d s ⟨id, fun _ _ => id⟩ hstale
      refine ⟨hkept.1, ?_⟩
      rintro id ur hrow rfl
      replace hrow := (congrArg (fun t => t.lookup id) hkept.2).symm.trans hrow
      rcases hs.intact.roles id ur hrow with ⟨role', hrole'⟩
      rw [(Table.insertNew_eq_some.mp hroles).1] at hrole'
      contradiction
  . intro r
    refine triple_of_imp (fun _ hs => hs.1) fun hr => ?_
    refine Triple.mono ?_ (fun _ hs => hs.2) fun _ _ => id
    cases r with
    | error e => exact absurd hr Bool.false_ne_true
    | ok role =>
      refine (insertRoleScopes_spec req.scopes).bind fun r => triple_of_imp (fun _ hs => hs.1)
        fun hr => ?_
      cases r with
      | error e => exact absurd hr Bool.false_ne_true
      | ok _ =>
        refine Triple.mono (spec_uses coherent_settled (respond_still ..)) ?_ fun _ _ => id
        rintro s ⟨_, hs, hnone⟩
        refine hs.mono (fun _ => id) ?_
        rintro u ⟨id, hrow⟩
        exact hnone id _ hrow rfl

theorem create_spec (req : roles.CreateRoleRequest) :
    Spec cfg asked (Coherent cfg asked nobody) (roles.create req) fun _ => Coherent cfg asked nobody := by
  unfold roles.create
  split
  . exact triple_pure fun _ => id
  . exact triple_pure fun _ => id
  . exact triple_pure fun _ => id
  . apply insertRole_spec

theorem delete_still : (roles.delete roleId).Uses Op.Still := by
  unfold roles.delete
  refine uses_perform_bind ⟨id, fun _ _ => id⟩ fun r => ?_
  rcases r with e | _ | role
  . trivial
  . trivial
  . dsimp only
    split
    . trivial
    . refine uses_perform_bind ⟨id, fun _ _ => id⟩ fun r => ?_
      rcases r with e | _ | _
      . trivial
      . unfold roles.deleteRole
        refine uses_perform_bind ⟨id, fun _ _ => id⟩ fun r => ?_
        rcases r with e | _ | _
        . trivial
        . trivial
        . exact (auditEvent_still _).bind fun _ => trivial
      . trivial

theorem tenantIdForUser_still : (roles.tenantIdForUser userId).Uses Op.Still :=
  tenantIdForUser_uses ⟨id, fun _ _ => id⟩

/--
Once something was changed for a user, invalidating it makes the cache coherent again.
-/
theorem invalidate_audit_spec {response : Response} {params : AuditAuthParams} :
    Spec cfg asked (Coherent cfg asked (· = userId))
      (do ScopeExpander.invalidate userId
          auditEvent params
          return response)
      fun _ => Coherent cfg asked nobody := by
  refine Triple.bind (invalidate_spec userId) fun _ => ?_
  refine Triple.mono (spec_uses coherent_settled ((auditEvent_still _).bind fun _ => trivial)) ?_
    fun _ _ => id
  exact fun s hs => hs.mono (fun _ => id) fun u hu => hu.2 hu.1

theorem assign_spec :
    Spec cfg asked (Coherent cfg asked nobody) (roles.assign userId roleId)
      fun _ => Coherent cfg asked nobody := by
  unfold roles.assign
  refine Triple.bind (spec_uses coherent_settled tenantIdForUser_still) fun r => ?_
  cases r with
  | error response => exact triple_pure fun _ => id
  | ok tenantId =>
    refine spec_still coherent_settled ⟨id, fun _ _ => id⟩ fun id' => ?_
    refine Triple.mono (P := Coherent cfg asked (· = userId)) ?_
      (fun s hs => hs.mono (fun _ => id) fun _ => False.elim) fun _ _ => id
    refine spec_op (fun d s hs => hs.exec id fun _ => id) fun r hr => ?_
    cases r with
    | error msg => exact absurd hr Bool.false_ne_true
    | ok _ => exact invalidate_audit_spec

theorem remove_spec :
    Spec cfg asked (Coherent cfg asked nobody) (roles.remove userId roleId)
      fun _ => Coherent cfg asked nobody := by
  unfold roles.remove
  refine Triple.bind (spec_uses coherent_settled tenantIdForUser_still) fun r => ?_
  cases r with
  | error response => exact triple_pure fun _ => id
  | ok tenantId =>
    refine triple_perform_bind (M := fun (r : Result Nat) s => Op.succeeded (.role (.remove userId
      roleId)) r = true ∧ Coherent cfg asked (fun u => u = userId ∧ r ≠ .ok 0) s) ?_ ?_
    . intro d s hE hs
      refine ⟨hE.1.2, ?_⟩
      have hkept : Coherent cfg asked (· = userId)
          ((Op.role (.remove userId roleId)).exec cfg d s).2 :=
        Coherent.exec (hs.mono (fun _ => id) fun _ => False.elim) id fun _ => id
      refine ⟨hkept.intact, ?_, hkept.known⟩
      intro u v hv
      by_cases hzero : ((semantics cfg).exec (.role (.remove userId roleId)) d s).1 = Except.ok 0
      . refine .inr ?_
        have hremoved := run_ok hzero
        injection hremoved with hremoved
        injection hremoved with hlength hs'
        have hnone := assignments_eq_nil.mp (List.eq_nil_of_length_eq_zero hlength)
        have hsame : ((Op.role (.remove userId roleId)).exec cfg d s).2.expansion cfg u
            = s.expansion cfg u := by
          change (Statement.run d _ (removeRole userId roleId) s).2.expansion cfg u = _
          rw [← hs']
          refine expansion_of_same rfl (fun r => ?_) fun _ _ _ => Iff.rfl
          rw [removeRole_hasRole]
          refine and_iff_left_of_imp fun hrole heq => hnone ?_
          rw [← heq.1, ← heq.2]
          exact hrole
        have hold : s.cached (ScopeExpander.cacheKey u) = some v :=
          @cached_of_exec cfg s d (.role (.remove userId roleId)) id u v hv
        rcases hs.cached u v hold with hstale | heq
        . exact hstale.elim
        . exact heq.trans (congrArg CacheValue.text hsame.symm)
      . rcases hkept.cached u v hv with hu | heq
        . exact .inl ⟨hu, hzero⟩
        . exact .inr heq
    . intro r
      refine triple_of_imp (fun _ hs => hs.1) fun hr => ?_
      rcases r with e | _ | n
      . exact absurd hr Bool.false_ne_true
      . refine triple_pure fun s hs => hs.2.mono (fun _ => id) fun u hu => ?_
        exact absurd rfl hu.2
      . refine Triple.mono invalidate_audit_spec (fun s hs => ?_) fun _ _ => id
        exact hs.2.mono (fun _ => id) fun u hu => hu.1

section Users

/--
Nothing is cached for the user.
-/
def NewUser (cfg : Config) (asked : String → Prop) (userId : String) (s : Server) : Prop :=
  Coherent cfg asked nobody s ∧ s.cached (ScopeExpander.cacheKey userId) = none

theorem newUser_settled : Settled cfg (NewUser cfg asked userId) :=
  coherent_settled.and uncached_settled

/--
Whatever is changed for the user, nothing cached becomes stale.
-/
theorem NewUser.exec {o : Op} {d : Draw} {s : Server} (h : NewUser cfg asked userId s)
    (hstore : ¬o.Stores) (htouches : ∀ u, o.Touches s u → u = userId)
    : NewUser cfg asked userId (o.exec cfg d s).2 := by
  have hnone : (o.exec cfg d s).2.cached (ScopeExpander.cacheKey userId) = none := by
    rw [Option.eq_none_iff_forall_ne_some]
    intro v hv
    have hold := cached_of_exec hstore hv
    rw [h.2] at hold
    contradiction
  refine ⟨?_, hnone⟩
  have hkept : Coherent cfg asked (· = userId) (o.exec cfg d s).2 :=
    Coherent.exec (h.1.mono (fun _ => id) fun _ => False.elim) hstore htouches
  refine hkept.of_uncached ?_
  rintro u rfl
  exact .inr hnone

/--
Nothing is cached under an id that was just generated.
-/
theorem insertUser_spec {tenantId email hash : String} {displayName : Option String}
    {f : Result User → App Response} {Q : Response → Server → Prop} (id : String)
    (hok : ∀ user, Spec cfg asked
      (fun s => NewUser cfg asked id s ∧ ∃ user, s.users.lookup id = some user) (f (.ok user)) Q)
    : Spec cfg asked (fun s => Coherent cfg asked nobody s ∧ ¬asked id)
        (App.user (.insert id tenantId email hash displayName) >>= f) Q := by
  refine triple_perform_bind (M := fun (r : Result User) s => Op.succeeded (.user (.insert id tenantId
    email hash displayName)) r = true
      ∧ NewUser cfg asked id s ∧ ∃ user, s.users.lookup id = some user) ?_ ?_
  . rintro d s hE ⟨hs, hnew⟩
    refine ⟨hE.1.2, ?_⟩
    have hres : ((semantics cfg).exec (.user (.insert id tenantId email hash displayName)) d
      s).1.isOk = true := hE.1.2
    cases hrun : ((semantics cfg).exec (.user (.insert id tenantId email hash displayName)) d s).1 with
    | error e =>
      rw [hrun] at hres
      contradiction
    | ok user =>
      rcases insertUser_ok (run_ok hrun) with ⟨u, users, husers, hs', _⟩
      have huncached : s.cached (ScopeExpander.cacheKey id) = none := by
        rw [Option.eq_none_iff_forall_ne_some]
        intro v hv
        rcases hs.known id v hv with hasked | ⟨user', huser'⟩
        . exact hnew hasked
        . rw [(Table.insertNew_eq_some.mp husers).1] at huser'
          contradiction
      refine ⟨NewUser.exec ⟨hs, huncached⟩ (fun h => h) fun _ => False.elim, u, ?_⟩
      change (Statement.run d _ (insertUser id tenantId email hash displayName) s).2.users.lookup id = _
      rw [hs']
      exact (Table.lookup_insertNew husers).trans (if_pos rfl)
  . intro r
    refine triple_of_imp (fun _ hs => hs.1) fun hr => ?_
    refine Triple.mono ?_ (fun _ hs => hs.2) fun _ _ h => h
    cases r with
    | error e => exact absurd hr Bool.false_ne_true
    | ok user => exact hok user

theorem generateId_spec {f : String → App Response} {Q : Response → Server → Prop} {P : Server → Prop}
    (hP : Settled cfg P) (hf : ∀ id, Spec cfg asked (fun s => P s ∧ ¬asked id) (f id) Q)
    : Spec cfg asked P (App.host .generateId >>= f) Q :=
  triple_perform_bind (M := fun id s => P s ∧ ¬asked id)
    (fun d s hE hs => ⟨hP _ d s ⟨id, fun _ _ => id⟩ hs, hE.2⟩) hf

theorem assignRoles_spec (roleIds : List String) :
    Spec cfg asked (NewUser cfg asked userId) (users.assignRoles userId roleIds)
      fun _ => NewUser cfg asked userId := by
  induction roleIds with
  | nil => exact triple_pure fun _ => id
  | cons roleId roleIds ih =>
    unfold users.assignRoles
    refine spec_still newUser_settled ⟨id, fun _ _ => id⟩ fun id' => ?_
    exact spec_op (fun d s hs => hs.exec id fun _ => id) fun _ _ => ih

theorem assignDefaults_spec :
    Spec cfg asked (NewUser cfg asked userId) (users.assignDefaults userId)
      fun _ => NewUser cfg asked userId := by
  unfold users.assignDefaults
  refine spec_still newUser_settled ⟨id, fun _ _ => id⟩ fun r => ?_
  cases r with
  | error e => exact triple_pure fun _ => id
  | ok roleIds => apply assignRoles_spec

theorem createUser_spec (req : users.CreateUserRequest) :
    Spec cfg asked (Coherent cfg asked nobody) (users.create cfg req)
      fun _ => Coherent cfg asked nobody := by
  unfold users.create
  split
  . exact triple_pure fun _ => id
  . split
    . exact triple_pure fun _ => id
    . split
      . exact triple_pure fun _ => id
      . refine spec_still coherent_settled ⟨id, fun _ _ => id⟩ fun r => ?_
        cases r with
        | error e => exact triple_pure fun _ => id
        | ok hash =>
          unfold users.insert
          refine generateId_spec coherent_settled fun userId => ?_
          refine insertUser_spec userId fun user => ?_
          refine Triple.bind (assignDefaults_spec.mono (fun _ hs => hs.1) fun _ _ => id) fun _ => ?_
          exact Triple.mono (spec_uses newUser_settled ((auditEvent_still _).bind fun _ => trivial))
            (fun _ => id) fun _ _ hs => hs.1

theorem assignDefaultRole_spec :
    Spec cfg asked (fun s => NewUser cfg asked userId s ∧ ∃ user, s.users.lookup userId = some user)
      (register.assignDefaultRole userId)
      fun _ s => NewUser cfg asked userId s ∧ ∃ user, s.users.lookup userId = some user := by
  have hsettled : Settled cfg fun s =>
      NewUser cfg asked userId s ∧ ∃ user, s.users.lookup userId = some user :=
    newUser_settled.and exists_settled
  unfold register.assignDefaultRole
  refine spec_still hsettled ⟨id, fun _ _ => id⟩ fun r => ?_
  split
  . next roleId _ =>
    refine spec_still hsettled ⟨id, fun _ _ => id⟩ fun id' => ?_
    refine spec_op (fun d s hs => ⟨hs.1.exec id fun _ => id, lookup_of_exec hs.2⟩) fun r hr => ?_
    cases r with
    | error e => exact triple_pure fun _ => id
    | ok _ =>
      exact spec_uses hsettled (uses_perform_bind ⟨id, fun _ _ => id⟩ fun _ => trivial)
  . exact triple_pure fun _ => id

theorem signWithTenantName_still (req : JwtSignRequest) :
    (JwtSigner.signWithTenantName req).Uses Op.Still :=
  signWithTenantName_uses ⟨id, fun _ _ => id⟩ ⟨id, fun _ _ => id⟩ fun _ _ => ⟨id, fun _ _ => id⟩

theorem issueTokens_spec {tenantId clientId : String} :
    Spec cfg asked (fun s => Coherent cfg asked nobody s ∧ ∃ user, s.users.lookup userId = some user)
      (issueTokens cfg userId tenantId clientId)
      fun _ => Coherent cfg asked nobody := by
  unfold issueTokens
  dsimp only
  refine Triple.bind (M := fun _ => Coherent cfg asked nobody) ?_
    fun scopes => spec_uses coherent_settled ?_
  . intro draws s hE hs
    exact (expand_spec asked userId _ draws s hE ⟨hs.1, .inr hs.2, rfl⟩).1
  refine uses_perform_bind ⟨id, fun _ _ => id⟩ fun tenantRow => ?_
  refine uses_perform_bind ⟨id, fun _ _ => id⟩ fun userInfo => ?_
  refine (signWithTenantName_still _).bind fun r => ?_
  cases r with
  | error e => trivial
  | ok access =>
    refine uses_perform_bind ⟨id, fun _ _ => id⟩ fun r => ?_
    cases r with
    | error e => trivial
    | ok raw =>
      refine uses_perform_bind ⟨id, fun _ _ => id⟩ fun now => ?_
      refine uses_perform_bind ⟨id, fun _ _ => id⟩ fun r => ?_
      cases r <;> trivial

theorem registerUser_spec {ip : String} (reg : RegisterRequest) :
    Spec cfg asked (Coherent cfg asked nobody) (register.createUser cfg ip reg)
      fun _ => Coherent cfg asked nobody := by
  unfold register.createUser
  refine spec_still coherent_settled ⟨id, fun _ _ => id⟩ fun r => ?_
  cases r with
  | error e => exact triple_pure fun _ => id
  | ok hash =>
    refine generateId_spec coherent_settled fun userId => ?_
    refine insertUser_spec userId fun user => ?_
    refine assignDefaultRole_spec.bind fun _ => ?_
    refine Triple.bind (spec_uses (newUser_settled.and exists_settled) (auditEvent_still _)) fun _ => ?_
    exact issueTokens_spec.mono (fun s hs => ⟨hs.1.1, hs.2⟩) fun _ _ => id

theorem register_spec {forwardedFor : Option String} (reg : RegisterRequest) :
    Spec cfg asked (Coherent cfg asked nobody) (register cfg forwardedFor reg)
      fun _ => Coherent cfg asked nobody := by
  unfold register
  dsimp only
  split
  . exact triple_pure fun _ => id
  . split
    . exact triple_pure fun _ => id
    . split
      . exact triple_pure fun _ => id
      . split
        . exact triple_pure fun _ => id
        . unfold register.checkDatabase
          refine spec_still coherent_settled ⟨id, fun _ _ => id⟩ fun r => ?_
          rcases r with e | _ | _
          . exact triple_pure fun _ => id
          . refine spec_still coherent_settled ⟨id, fun _ _ => id⟩ fun r => ?_
            rcases r with e | _ | _
            . exact triple_pure fun _ => id
            . exact triple_pure fun _ => id
            . apply registerUser_spec
          . exact triple_pure fun _ => id

end Users

end Roles

end Aspectus
