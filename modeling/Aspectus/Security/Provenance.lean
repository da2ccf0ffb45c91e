import Aspectus.Security.Replay

/-!
This module contains where the tokens of a user come from: each of them goes back to a login, a
registration, or an authorization of the user, by a chain of rotations.
-/

namespace Aspectus

open Interaction Machine Statement

variable {cfg : Config} {s : Server} {m : AuthMachine}

/--
The password is the one that was set for the user.
-/
def HasPassword (cfg : Config) (u : User) (password : String) : Prop :=
  ∃ salt, u.passwordHash = some (cfg.hashPassword salt password)

/--
Every user has a password or none, there are no other hashes.
-/
def HashesKnown (cfg : Config) (s : Server) : Prop :=
  ∀ id u hash, s.users.lookup id = some u → u.passwordHash = some hash →
    ∃ password, HasPassword cfg u password

/--
At this entry, the user belongs to the tenant and has the password.
-/
def Presented (cfg : Config) (e : AuthEntry) (userId tenantId password : String) : Prop :=
  ∃ u, e.pre.users.lookup userId = some u ∧ u.tenantId = tenantId ∧ HasPassword cfg u password

/--
According to `log`, thread `i` may issue tokens for the user and the client, because of a chain of
rotations that goes back to a request with the password of the user or to its registration.
-/
inductive Backed (cfg : Config) : (log : List AuthEntry) → (i : Nat) → (userId clientId : String) → Prop
    where
  | login {log : List AuthEntry} {i : Nat} {userId : String} {forwardedFor : Option String}
    {req : LoginRequest} {e : AuthEntry} (hreq : Started log i (.login forwardedFor req))
    (he : e ∈ log) (hi : e.thread = i) (hpresented : Presented cfg e userId req.tenantId req.password)
    : Backed cfg log i userId req.clientId
  | register {log : List AuthEntry} {i : Nat} {userId : String} {forwardedFor : Option String}
    {reg : RegisterRequest} {e : AuthEntry} {u : User}
    (hreq : Started log i (.register forwardedFor reg)) (he : e ∈ log) (hi : e.thread = i)
    (hnew : e.pre.users.lookup userId = none)
    (hu : (e.post (semantics cfg)).users.lookup userId = some u) (htenant : u.tenantId = reg.tenantId)
    : Backed cfg log i userId reg.clientId
  | code {log restx resto : List AuthEntry} {i : Nat} {x o a : AuthEntry}
    {code userId clientId redirectUri : String} {expiresAt : Instant} {req : AuthorizeRequest}
    (hx : x :: restx <:+ log) (hi : x.thread = i) (hex : Exchanged x code userId clientId redirectUri)
    (hnow : x.pre.now < expiresAt) (ho : o :: resto <:+ restx)
    (hstored : CodeStored o code userId clientId redirectUri expiresAt)
    (hreq : Started resto o.thread (.authorize req)) (ha : a ∈ resto) (hai : a.thread = o.thread)
    (hpresented : Presented cfg a userId req.tenantId req.password)
    : Backed cfg log i userId clientId
  | refresh {log restx resto : List AuthEntry} {i : Nat} {x o : AuthEntry}
    {tokenHash userId clientId : String} {t : RefreshToken} (hgrants : Grants cfg log i tokenHash)
    (hx : x :: restx <:+ log) (hi : x.thread = i) (hrot : Rotated x tokenHash userId clientId)
    (ht : x.pre.refreshTokens.lookup tokenHash = some t) (hrotatable : rotatable x.pre.now t = true)
    (ho : o :: resto <:+ restx) (hcreated : RefreshCreated o tokenHash userId clientId)
    (hbacked : Backed cfg resto o.thread userId clientId)
    : Backed cfg log i userId clientId

section Reachable

variable (h : AuthMachine.Reachable cfg s m)
include h

/--
The hash that a thread has computed is one of the password it was computed for.
-/
theorem AuthMachine.Reachable.hashed {i : Nat} {rest : List AuthEntry} (hrest : rest <:+ m.log)
    {password hash : String}
    (hcalled : Called (eventsOf i rest) (.host (.hashPassword password)) (.ok hash))
    : ∃ salt, hash = cfg.hashPassword salt password := by
  rcases called_eventsOf.mp hcalled with ⟨e, he, _, hdid⟩
  rcases hdid.exec (h.sound (hrest.mem he)) with ⟨d, hres, _⟩
  have hhost : d.host (cfg.hashPassword d.salt password) = .ok hash := hres.symm
  unfold Draw.host at hhost
  split at hhost
  . contradiction
  . injection hhost with hhost
    exact ⟨d.salt, hhost.symm⟩

/--
Hashes are only ever stored for passwords.
-/
theorem AuthMachine.Reachable.hashes_post {e : AuthEntry} {rest : List AuthEntry}
    (he : e :: rest <:+ m.log) (hknown : HashesKnown cfg e.pre)
    : HashesKnown cfg (e.post (semantics cfg)) := by
  intro id u' hash hu' hhash
  rcases users_step e hu' with hsame | ⟨o, r, hdid, ⟨u, hu, hchanged⟩ | ⟨_, hinserted⟩⟩
  . exact hknown id u' hash hsame hhash
  . rcases hchanged.passwordHash with hsame | ⟨hash', rfl, hset⟩
    . rw [hsame] at hhash
      rcases hknown id u hash hu hhash with ⟨password, salt, hpassword⟩
      exact ⟨password, salt, hsame.trans hpassword⟩
    . rcases h.allowed he hdid with ⟨q, _, password, hcalled⟩
      rcases h.hashed (suffix_tail he) hcalled with ⟨salt, rfl⟩
      exact ⟨password, salt, hset⟩
  . rcases hinserted with ⟨_, _, hash', _, rfl, _, hset, _⟩
    rcases h.allowed he hdid with ⟨q, _, _, reg, _, _, _, _, hcalled⟩
    rcases h.hashed (suffix_tail he) hcalled with ⟨salt, rfl⟩
    exact ⟨reg.password, salt, hset⟩

theorem AuthMachine.Reachable.hashes (hs : HashesKnown cfg s) {e : AuthEntry} (he : e ∈ m.log) :
    HashesKnown cfg e.pre :=
  Reaches.pre_inv (P := HashesKnown cfg) (fun _ _ hs => hs) hs
    (fun _ _ _ h he => AuthMachine.Reachable.hashes_post h he) h he

/--
If verification only accepts the password of a hash, then a hash that was verified is one of the
password it was verified for.
-/
theorem AuthMachine.Reachable.verified (hs : HashesKnown cfg s)
    (hverify : ∀ salt password password',
      cfg.verifyPassword password' (cfg.hashPassword salt password) = .ok (decide (password' = password)))
    {e : AuthEntry} (he : e ∈ m.log) {userId hash password : String} {u : User}
    (hu : e.pre.users.lookup userId = some u) (hhash : u.passwordHash = some hash)
    (hverified : cfg.verifyPassword password hash = .ok true)
    : HasPassword cfg u password := by
  rcases h.hashes hs he userId u hash hu hhash with ⟨password', salt, hpassword⟩
  rw [hhash] at hpassword
  injection hpassword with hpassword
  subst hpassword
  rw [hverify] at hverified
  injection hverified with hverified
  have hsame : password = password' := by simpa using hverified
  subst hsame
  exact ⟨salt, hhash⟩

/--
A code that is exchanged was created before.
-/
theorem AuthMachine.Reachable.code_origin (hs : ∀ code, s.authorizationCodes.lookup code = none)
    {x : AuthEntry} {rest : List AuthEntry} (hx : x :: rest <:+ m.log) {code : String}
    {c : AuthorizationCode} (hc : x.pre.authorizationCodes.lookup code = some c)
    : ∃ o resto, o :: resto <:+ rest
        ∧ CodeStored o code c.userId c.clientId c.redirectUri c.expiresAt := by
  rcases Reaches.split h hx with ⟨m₁, _, h₁, hlog, hstore, _⟩
  rcases Reaches.became (P := fun s : Server => (s.authorizationCodes.lookup code).isSome = true)
    (fun _ _ hs => hs) h₁ (by simp [hs]) (by simp [hstore, hc]) with ⟨o, resto, ho, hpre, hpost⟩
  rcases Option.isSome_iff_exists.mp hpost with ⟨c', hpost⟩
  rw [hlog] at ho
  have hsound := h.sound ((ho.trans (suffix_tail hx)).mem List.mem_cons_self)
  rcases code_created hsound (by simpa using hpre) hpost with
    ⟨userId, clientId, redirectUri, expiresAt, hstored⟩
  have hrow := (hstored.spec hsound).2
  rcases (h.evolves hx (ho.mem List.mem_cons_self)).codes _ _ hrow with ⟨c'', hc'', hkept⟩
  rw [hc] at hc''
  injection hc'' with hc''
  subst hc''
  refine ⟨o, resto, ho, ?_⟩
  rw [hkept.userId, hkept.clientId, hkept.redirectUri, hkept.expiresAt]
  exact hstored

/--
A refresh token that is rotated was created before.
-/
theorem AuthMachine.Reachable.token_origin (hs : ∀ tokenHash, s.refreshTokens.lookup tokenHash = none)
    {x : AuthEntry} {rest : List AuthEntry} (hx : x :: rest <:+ m.log) {tokenHash : String}
    {t : RefreshToken} (ht : x.pre.refreshTokens.lookup tokenHash = some t)
    : ∃ o resto, o :: resto <:+ rest ∧ RefreshCreated o tokenHash t.userId t.clientId := by
  rcases Reaches.split h hx with ⟨m₁, _, h₁, hlog, hstore, _⟩
  rcases Reaches.became (P := fun s : Server => (s.refreshTokens.lookup tokenHash).isSome = true)
    (fun _ _ hs => hs) h₁ (by simp [hs]) (by simp [hstore, ht]) with ⟨o, resto, ho, hpre, hpost⟩
  rcases Option.isSome_iff_exists.mp hpost with ⟨t', hpost⟩
  rw [hlog] at ho
  have hsound := h.sound ((ho.trans (suffix_tail hx)).mem List.mem_cons_self)
  rcases refreshToken_created hsound (by simpa using hpre) hpost with ⟨userId, clientId, hcreated⟩
  rcases (hcreated.spec hsound).2 with ⟨row, hrow, huser, hclient, _⟩
  rcases (h.evolves hx (ho.mem List.mem_cons_self)).refreshTokens _ _ hrow with ⟨t'', ht'', hkept⟩
  rw [ht] at ht''
  injection ht'' with ht''
  subst ht''
  refine ⟨o, resto, ho, ?_⟩
  rw [hkept.userId, hkept.clientId, huser, hclient]
  exact hcreated

/--
The user that a thread is authorized for belongs to the tenant that it is authorized for.
-/
theorem AuthMachine.Reachable.authorized_tenant {e : AuthEntry} {rest : List AuthEntry}
    (he : e :: rest <:+ m.log) {q : AuthRequest} {userId tenantId clientId : String}
    (hauth : Authorized cfg (eventsOf e.thread rest) q userId tenantId clientId)
    : ∃ u, e.pre.users.lookup userId = some u ∧ u.tenantId = tenantId := by
  -- Users are never moved to another tenant.
  have hlater : ∀ {k : AuthEntry}, k ∈ rest → (∃ u,
      (k.post (semantics cfg)).users.lookup userId = some u ∧ u.tenantId = tenantId) →
      ∃ u, e.pre.users.lookup userId = some u ∧ u.tenantId = tenantId := by
    rintro k hk ⟨u, hu, htenant⟩
    rcases (h.evolves he hk).users _ _ hu with ⟨u', hu', hkept⟩
    exact ⟨u', hu', hkept.tenantId.trans htenant⟩
  have hread : ∀ {k : AuthEntry} {u : User}, k ∈ rest → k.pre.users.lookup userId = some u →
      u.tenantId = tenantId →
      ∃ u, e.pre.users.lookup userId = some u ∧ u.tenantId = tenantId := by
    intro k u hk hu htenant
    rcases ((evolution cfg).post k).users _ _ hu with ⟨u', hu', hkept⟩
    exact hlater hk ⟨u', hu', hkept.tenantId.trans htenant⟩
  have hsound : ∀ {k : AuthEntry}, k ∈ rest → Entry.Sound (semantics cfg) k :=
    fun hk => h.sound ((suffix_tail he).mem hk)
  cases hauth with
  | login hrow hpassword hactive =>
    rcases called_eventsOf.mp hrow with ⟨k, hk, _, hdid⟩
    rcases selectLogin_ok (hdid.query (hsound hk) fun d hres => hres.symm) with
      ⟨u, hu, htenant, _, hrow, _⟩
    exact hread hk hu (htenant.trans hrow.symm)
  | register hinsert =>
    rcases called_eventsOf.mp hinsert with ⟨k, hk, _, hdid⟩
    rcases insertUser_ok (hdid.run (hsound hk) fun d hres => ⟨hres.symm, rfl⟩) with
      ⟨u, users, husers, hpost, htenant, _⟩
    refine hlater hk ⟨u, ?_, htenant⟩
    rw [hpost]
    simp [Table.lookup_insertNew husers]
  | code hgrant hcode hclient hexchange huri hchallenge hverifier htenant =>
    rcases called_eventsOf.mp htenant with ⟨k, hk, _, hdid⟩
    have hselect := hdid.query (hsound hk) fun d hres => hres.symm
    injection hselect with hselect
    rcases Option.map_eq_some_iff.mp hselect with ⟨u, hu, htenant⟩
    exact hread hk hu htenant
  | refresh hgrant htoken hclient hrotate htenant =>
    rcases called_eventsOf.mp htenant with ⟨k, hk, _, hdid⟩
    have hselect := hdid.query (hsound hk) fun d hres => hres.symm
    injection hselect with hselect
    rcases Option.map_eq_some_iff.mp hselect with ⟨u, hu, htenant⟩
    injection htenant with htenant _
    exact hread hk hu htenant

variable (hhashes : HashesKnown cfg s)
  (hverify : ∀ salt password password',
    cfg.verifyPassword password' (cfg.hashPassword salt password) = .ok (decide (password' = password)))
include hhashes hverify

/--
The thread that created a code was presented the password of the user.
-/
theorem AuthMachine.Reachable.code_presented {o : AuthEntry} {rest : List AuthEntry}
    (ho : o :: rest <:+ m.log) {code userId clientId redirectUri : String} {expiresAt : Instant}
    (hstored : CodeStored o code userId clientId redirectUri expiresAt)
    : ∃ req, Started rest o.thread (.authorize req) ∧ ∃ a ∈ rest, a.thread = o.thread
        ∧ Presented cfg a userId req.tenantId req.password := by
  rcases h.allowed ho hstored with ⟨q, hq, hmay⟩
  rcases hmay.request with ⟨req, tenantId, hash, rfl, _, _, hcalled, hverified⟩
  rcases called_eventsOf.mp hcalled with ⟨a, ha, hai, hdid⟩
  have hmem := (suffix_tail ho).mem ha
  rcases selectCredentials_ok (hdid.query (h.sound hmem) fun d hres => hres.symm) with
    ⟨u, hu, htenant, _, _, hhash⟩
  exact ⟨req, hq, a, ha, hai, u, hu, htenant, h.verified hhashes hverify hmem hu hhash hverified⟩

/--
Whatever a thread is authorized to do is backed by a password or a registration.
-/
theorem AuthMachine.Reachable.backed (hcodes : ∀ code, s.authorizationCodes.lookup code = none)
    (htokens : ∀ tokenHash, s.refreshTokens.lookup tokenHash = none) {rest : List AuthEntry}
    (hrest : rest <:+ m.log) {i : Nat} {q : AuthRequest} (hq : Started rest i q)
    {userId tenantId clientId : String}
    (hauth : Authorized cfg (eventsOf i rest) q userId tenantId clientId)
    : Backed cfg rest i userId clientId := by
  -- The chain is as long as there are rotations, and each of them is older than the one before.
  induction hn : rest.length using Nat.strong_induction_on generalizing rest i q tenantId with
  | _ n ih =>
    cases hauth with
    | login hrow hpassword hactive =>
      rcases called_eventsOf.mp hrow with ⟨e, he, hi, hdid⟩
      have hmem := hrest.mem he
      rcases selectLogin_ok (hdid.query (h.sound hmem) fun d hres => hres.symm) with
        ⟨u, hu, htenant, _, _, hhash, _⟩
      exact .login hq he hi ⟨u, hu, htenant, h.verified hhashes hverify hmem hu hhash hpassword⟩
    | register hinsert =>
      rcases called_eventsOf.mp hinsert with ⟨e, he, hi, hdid⟩
      rcases insertUser_ok (hdid.run (h.sound (hrest.mem he)) fun d hres => ⟨hres.symm, rfl⟩) with
        ⟨u, users, husers, hpost, htenant, _⟩
      refine .register hq he hi (Table.insertNew_eq_some.mp husers).1 (u := u) ?_ htenant
      rw [hpost]
      simp [Table.lookup_insertNew husers]
    | code hgrant hcode hclient hexchange huri hchallenge hverifier htenant =>
      rcases hexchange.located with ⟨x, restx, hx, hi, hex⟩
      have hxlog := hx.trans hrest
      rcases Exchanged.spec hex (h.sound (hxlog.mem List.mem_cons_self)) with
        ⟨c, hc, hexchangeable, huser, hcid, hcuri, _⟩
      rcases h.code_origin hcodes hxlog hc with ⟨o, resto, ho, hstored⟩
      rw [huser, hcid, hcuri] at hstored
      rcases h.code_presented hhashes hverify (ho.trans (suffix_tail hxlog)) hstored with
        ⟨req, hreq, a, ha, hai, hpresented⟩
      simp only [exchangeable, Bool.and_eq_true, decide_eq_true_eq] at hexchangeable
      exact .code hx hi hex hexchangeable.2 ho hstored hreq ha hai hpresented
    | @refresh req presented _ _ _ _ hgrant htoken hclient hrotate htenant =>
      rcases hrotate.located with ⟨x, restx, hx, hi, hdid⟩
      have hxlog := hx.trans hrest
      rcases Rotated.spec ⟨_, hdid⟩ (h.sound (hxlog.mem List.mem_cons_self)) with
        ⟨t, ht, hrotatable, huser, hcid, _⟩
      rcases h.token_origin htokens hxlog ht with ⟨o, resto, ho, hcreated⟩
      rw [huser, hcid] at hcreated
      have holog := ho.trans (suffix_tail hxlog)
      rcases h.created holog hcreated with ⟨q', hq', ⟨tenantId', hauth'⟩, _, _⟩
      have hshorter : resto.length < n := by
        have h1 := hx.length_le
        have h2 := ho.length_le
        simp only [List.length_cons] at h1 h2
        omega
      have hback := ih resto.length hshorter (suffix_tail holog) hq' hauth' rfl
      exact .refresh ⟨_, hq, req, presented, rfl, hgrant, htoken, rfl⟩ hx hi ⟨_, hdid⟩ ht hrotatable ho
        hcreated hback

end Reachable

/--
The provenance of user tokens. In every execution that starts without codes and refresh tokens, each
token that is signed, stored, or answered belongs to the tenant of its user, and goes back to a
request that presented the password of the user or registered it.
-/
theorem user_token_provenance (cfg : Config) (s : Server) (m : AuthMachine)
    (h : AuthMachine.Reachable cfg s m) (hhashes : HashesKnown cfg s)
    (hverify : ∀ salt password password',
      cfg.verifyPassword password' (cfg.hashPassword salt password) = .ok (decide (password' = password)))
    (hcodes : ∀ code, s.authorizationCodes.lookup code = none)
    (htokens : ∀ tokenHash, s.refreshTokens.lookup tokenHash = none) :
    ∀ e rest, e :: rest <:+ m.log →
      (∀ claims, Signed e claims →
        (∃ u, e.pre.users.lookup claims.sub = some u ∧ u.tenantId = claims.tenantId)
          ∧ ∃ clientId, Backed cfg rest e.thread claims.sub clientId)
      ∧ (∀ tokenHash userId clientId, RefreshCreated e tokenHash userId clientId →
        Backed cfg rest e.thread userId clientId)
      ∧ (∀ status t, e.what = .finish ⟨status, .userTokens t⟩ →
        (∃ u, e.pre.users.lookup t.user.id = some u ∧ u.tenantId = t.tenant.id)
          ∧ (∃ clientId, Backed cfg rest e.thread t.user.id clientId)
          ∧ (∃ claims, Called (eventsOf e.thread rest) (.host (.encodeJwt claims)) (.ok t.accessToken)
            ∧ claims.sub = t.user.id ∧ claims.tenantId = t.tenant.id)
          ∧ ∃ clientId expiresAt, Called (eventsOf e.thread rest)
            (.refresh (.create (cfg.sha256Text t.refreshToken) t.user.id clientId expiresAt)) (.ok ())) := by
  intro e rest he
  have hrest := suffix_tail he
  refine ⟨?_, ?_, ?_⟩
  . intro claims hsigned
    rcases h.signed he hsigned with ⟨q, hq, ⟨clientId, hauth⟩, _⟩
    exact ⟨h.authorized_tenant he hauth, clientId,
      h.backed hhashes hverify hcodes htokens hrest hq hauth⟩
  . intro tokenHash userId clientId hcreated
    rcases h.created he hcreated with ⟨q, hq, ⟨tenantId, hauth⟩, _, _⟩
    exact h.backed hhashes hverify hcodes htokens hrest hq hauth
  . intro status t hw
    rcases h.answered he hw with ⟨q, hq, hissued⟩
    rcases hissued.authorized with ⟨clientId, expiresAt, hauth, hstored⟩
    refine ⟨h.authorized_tenant he hauth, ⟨clientId, ?_⟩, hissued.signed, clientId, expiresAt, hstored⟩
    exact h.backed hhashes hverify hcodes htokens hrest hq hauth

theorem Sample.server_hashes : HashesKnown Sample.config Sample.server := by
  intro id u hash hu hhash
  have husers : Sample.server.users.lookup id = some u := hu
  unfold Sample.server at husers
  dsimp only at husers
  by_cases hid : id = Sample.userId
  . subst hid
    rw [AList.lookup_insert] at husers
    injection husers with husers
    subst husers
    exact ⟨Sample.password, Sample.salt, rfl⟩
  . rw [AList.lookup_insert_ne hid] at husers
    contradiction

open Sample in
theorem user_token_provenance_redeemed :
    ∃ e rest, e :: rest <:+ (redeemed none none).log ∧ (∃ status t, e.what
        = .finish ⟨status, .userTokens t⟩)
      ∧ ∃ clientId, Backed config rest e.thread userId clientId := by
  have hissued : (redeemed none none).log.any (answersTokens 2) = true := by
    decide +kernel
  rcases List.any_eq_true.mp hissued with ⟨e, he, htokens⟩
  rcases of_answersTokens htokens with ⟨_, status, t, hw, huser⟩
  rcases suffix_of_mem he with ⟨rest, hrest⟩
  have hprovenance := user_token_provenance config server (redeemed none none) redeemed_reachable
    server_hashes verifyPassword_hashPassword (fun _ => rfl) (fun _ => rfl) e rest hrest
  rcases (hprovenance.2.2 status t hw).2.1 with ⟨clientId, hbacked⟩
  exact ⟨e, rest, hrest, ⟨status, t, hw⟩, clientId, huser ▸ hbacked⟩

end Aspectus
