import Aspectus.Discipline.Replay
import Aspectus.Security.Refresh
import Mathlib.Logic.Relation

/-!
This module contains what happens when a refresh token is replayed: all tokens that descend from it
are revoked, apart from those that are still to be stored by a grant which has already rotated their
predecessor.
-/

namespace Aspectus

open Interaction Machine Statement

variable {cfg : Config} {s : Server} {m : AuthMachine}

/--
One thread has rotated the first token and stored the second one.
-/
def Succeeds (log : List AuthEntry) (tokenHash tokenHash' : String) : Prop :=
  ∃ e ∈ log, ∃ e' ∈ log, e'.thread = e.thread
    ∧ (∃ userId clientId, Rotated e tokenHash userId clientId)
    ∧ ∃ userId clientId, RefreshCreated e' tokenHash' userId clientId

/--
A thread that has rotated the token before the entry `v` stores its successor after it.
-/
def Straggles (log : List AuthEntry) (v : AuthEntry) (restv : List AuthEntry) (tokenHash : String) :
    Prop :=
  ∃ e ∈ restv, ∃ e' rest', e' :: rest' <:+ log ∧ v :: restv <:+ rest' ∧ e'.thread = e.thread
    ∧ (∃ userId clientId, Rotated e tokenHash userId clientId)
    ∧ ∃ tokenHash' userId clientId, RefreshCreated e' tokenHash' userId clientId

/--
A token that was rotated is storable.
-/
theorem Rotated.storable {e : AuthEntry} {tokenHash userId clientId : String}
    (h : Rotated e tokenHash userId clientId) (hs : Entry.Sound (semantics cfg) e)
    : storable tokenHash = true := by
  rcases h with ⟨oldHash, hdid⟩
  rcases hdid.exec hs with ⟨d, hres, _⟩
  simpa using (run_accepted hres.symm).2

section Reachable

variable (h : AuthMachine.Reachable cfg s m)
include h

/--
A thread that has both rotated a token and stored one is a refresh grant with the first one, and has
rotated it first.
-/
theorem AuthMachine.Reachable.succeeds {e e' : AuthEntry} {rest' : List AuthEntry} (he : e ∈ m.log)
    (he' : e' :: rest' <:+ m.log) (hthread : e'.thread = e.thread)
    {tokenHash userId clientId tokenHash' userId' clientId' : String}
    (hrot : Rotated e tokenHash userId clientId)
    (hcreated : RefreshCreated e' tokenHash' userId' clientId')
    : e ∈ rest' ∧ userId' = userId := by
  rcases suffix_of_mem he with ⟨rest, hrest⟩
  rcases hrot with ⟨oldHash, hdid⟩
  rcases h.allowed hrest hdid with ⟨q, hq, hmay⟩
  have hq := hq.of_suffix (suffix_tail hrest)
  rcases hmay.request with hpresents | ⟨req, rfl, _⟩
  . rcases h.successor he' hcreated ⟨q, hthread ▸ hq, hpresents⟩ with ⟨r, hr, _, hrot'⟩
    have := h.rotate_unique ((suffix_tail he').mem hr) he hrot' ⟨oldHash, hdid⟩
    subst this
    rcases hrot' with ⟨oldHash', hdid'⟩
    have hsame : userId' = userId := by
      rcases hdid with ⟨d, hw⟩
      rcases hdid' with ⟨d', hw'⟩
      rw [hw] at hw'
      injection hw' with hev
      injection hev with _ hres
      simp only [Except.ok.injEq, Option.some.injEq, Prod.mk.injEq] at hres
      exact hres.1.symm
    exact ⟨hr, hsame⟩
  . -- A logout is not authorized to store a token.
    rcases h.created he' hcreated with ⟨q', hq', ⟨tenantId, hauth⟩, _, _⟩
    have := Reaches.started_unique h hq (hthread ▸ hq'.of_suffix (suffix_tail he'))
    subst this
    cases hauth

/--
The entry `v` revokes the whole family of a token if nobody straggles: every descendant is stored
before it.
-/
theorem AuthMachine.Reachable.family {v : AuthEntry} {restv : List AuthEntry}
    (hv : v :: restv <:+ m.log) {userId root : String} (hrevoked : AllRevoked v userId)
    (hroot : ∃ t, v.pre.refreshTokens.lookup root = some t ∧ t.userId = userId)
    (hstraggle : ∀ tokenHash, Relation.ReflTransGen (Succeeds m.log) root tokenHash →
      ¬Straggles m.log v restv tokenHash) {tokenHash : String}
    (hfamily : Relation.ReflTransGen (Succeeds m.log) root tokenHash)
    : ∃ t, v.pre.refreshTokens.lookup tokenHash = some t ∧ t.userId = userId := by
  have hvs := h.sound (hv.mem List.mem_cons_self)
  induction hfamily with
  | refl => exact hroot
  | @tail parent child hparent hsucceeds ih =>
    rcases ih with ⟨t, ht, huser⟩
    rcases hsucceeds with ⟨e, he, e', he', hthread, ⟨u, c, hrot⟩, u', c', hcreated⟩
    rcases suffix_of_mem he with ⟨rest, hrest⟩
    rcases suffix_of_mem he' with ⟨rest', hrest'⟩
    rcases h.succeeds he hrest' hthread hrot hcreated with ⟨hbefore, hu⟩
    rcases hrot.spec (h.sound he) with ⟨te, hte, hrotatable, hteuser, _, hepost⟩
    rcases suffix_trichotomy hv hrest with ⟨heq, _⟩ | hold | hold
    . subst heq
      rcases hrevoked with ⟨n, hdid⟩
      rcases hrot with ⟨_, hdid'⟩
      cases hdid.unique hdid'
    . -- The predecessor was rotated before `v`, hence the child was stored before `v`.
      rcases (h.evolves hv (hold.mem List.mem_cons_self)).refreshTokens _ _ hepost with
        ⟨t', ht', hkept⟩
      rw [ht] at ht'
      injection ht' with ht'
      subst ht'
      have hsame : u' = userId := by
        rw [hu, ← hteuser, ← huser]
        exact hkept.userId.symm
      rcases suffix_trichotomy hv hrest' with ⟨heq, _⟩ | hold' | hold'
      . subst heq
        rcases hrevoked with ⟨n, hdid⟩
        rcases hcreated with ⟨_, hdid'⟩
        cases hdid.unique hdid'
      . rcases (hcreated.spec (h.sound he')).2 with ⟨t', ht', huser', _⟩
        rcases (h.evolves hv (hold'.mem List.mem_cons_self)).refreshTokens _ _ ht' with
          ⟨t'', ht'', hkept'⟩
        refine ⟨t'', ht'', ?_⟩
        rw [hkept'.userId, huser', hsame]
      . exact absurd ⟨e, hold.mem List.mem_cons_self, e', rest', hrest', hold', hthread,
          ⟨u, c, hrot⟩, child, u', c', hcreated⟩ (hstraggle parent hparent)
    . -- The predecessor cannot be rotated once it is revoked.
      rcases hrevoked.spec hvs ht huser with ⟨t', ht', hisSome⟩
      rcases (h.evolves hrest (hold.mem List.mem_cons_self)).refreshTokens _ _ ht' with
        ⟨t'', ht'', hkept⟩
      rw [hte] at ht''
      injection ht'' with ht''
      subst ht''
      rcases Option.isSome_iff_exists.mp hisSome with ⟨at_, hat⟩
      simp [rotatable, hkept.revokedAt at_ hat] at hrotatable

/--
A request that presents a token which was rotated before it started, and whose client authenticates
and whose statements do not fail, has revoked all tokens of the user when it is answered.
-/
theorem AuthMachine.Reachable.replay_revokes {st r f : AuthEntry} {rest₀ : List AuthEntry}
    {req : TokenRequest} (hst : st :: rest₀ <:+ m.log) (hw : st.what = .start (.token req))
    {presented clientId userId rotatedClientId : String} {client : OAuth2Client} {a : Response}
    (hgrant : req.grantType = "refresh_token") (htoken : req.refreshToken = some presented)
    (hr : r ∈ rest₀) (hrot : Rotated r (cfg.sha256Text presented) userId rotatedClientId)
    (hf : f ∈ m.log) (hfi : f.thread = st.thread) (hfw : f.what = .finish a)
    (hid : req.clientId = some clientId)
    (hclient : st.pre.oauth2Clients.lookup clientId = some client)
    (hsecret : token.secretMatches cfg (req.clientSecret.getD "") (some client.clientSecretHash) = true)
    (hstorable : storable clientId = true ∧ storable userId = true)
    (hhealthy : ∀ e ∈ m.log, e.thread = st.thread → ∀ ev d, e.what = .call ev d → d.fault = none)
    : ∃ v restv, v :: restv <:+ m.log ∧ v.thread = st.thread ∧ AllRevoked v userId
        ∧ st :: rest₀ <:+ restv := by
  rcases suffix_of_mem hf with ⟨restf, hrestf⟩
  rcases Reaches.finished (AuthRequest.handle_handles cfg) h hrestf hfw with ⟨q, hq, hhandles⟩
  have := Reaches.started_unique h ⟨st, hst.mem List.mem_cons_self, hfi.symm, hw⟩
    (hq.of_suffix (suffix_tail hrestf))
  subst this
  rcases hhandles req presented clientId rfl hgrant htoken hid with ⟨row, hrow, hhandled⟩
  have hrs := h.sound ((suffix_tail hst).mem hr)
  have hhash := hrot.storable hrs
  rcases hrot.spec hrs with ⟨tr, _, _, htruser, _, hrpost⟩
  -- Each statement of the request finds the client, or the token and its revocation.
  have hread : ∀ {e : AuthEntry} {rest : List AuthEntry} {o : Op} {x : o.Res}, e :: rest <:+ restf →
      e.thread = f.thread → Did e o x → st :: rest₀ <:+ rest ∧ Evolves st.pre e.pre
        ∧ (∃ d, d.fault = none ∧ x = (o.exec cfg d e.pre).1)
        ∧ ∃ t, e.pre.refreshTokens.lookup (cfg.sha256Text presented) = some t ∧ t.userId = userId
          ∧ t.revokedAt = some r.pre.now := by
    intro e rest o x he hei hdid
    have helog := he.trans (suffix_tail hrestf)
    have hes := h.sound (helog.mem List.mem_cons_self)
    have hafter := h.call_after_start hst hw helog (hei.trans hfi) hdid
    have hstpost : st.post (semantics cfg) = st.pre := by
      unfold Entry.post
      rw [hw]
    rcases (h.evolves helog ((suffix_tail hafter).mem hr)).refreshTokens _ _ hrpost with ⟨t, ht, hkept⟩
    refine ⟨hafter, ?_, ?_, t, ht, ?_, ?_⟩
    . rw [← hstpost]
      exact h.evolves helog (hafter.mem List.mem_cons_self)
    . rcases hdid with ⟨d, hew⟩
      exact ⟨d, hhealthy e (helog.mem List.mem_cons_self) (hei.trans hfi) _ d hew, hes _ d hew⟩
    . rw [hkept.userId]
      exact htruser
    . exact hkept.revokedAt _ rfl
  rcases hrow.located with ⟨e₁, rest₁, he₁, hi₁, hdid₁⟩
  rcases hread he₁ hi₁ hdid₁ with ⟨_, hevolves, ⟨d₁, hfault₁, hres₁⟩, _⟩
  rcases hevolves.clients _ _ hclient with ⟨_, hclient', rfl⟩
  have hselect : row = .ok (some client.clientSecretHash) := by
    rw [hres₁]
    refine congrArg Prod.fst (query_healthy hfault₁ (by simp [hstorable.1]) ?_)
    unfold selectSecretHash
    rw [hclient']
    rfl
  rcases hhandled _ hselect hsecret with ⟨r₂, hcalled₂, hreplay⟩
  rcases hcalled₂.located with ⟨e₂, rest₂, he₂, hi₂, hdid₂⟩
  rcases hread he₂ hi₂ hdid₂ with ⟨_, _, ⟨d₂, hfault₂, hres₂⟩, t₂, ht₂, _, hrevoked₂⟩
  have hnone : r₂ = .ok none := by
    rw [hres₂]
    refine congrArg Prod.fst (run_healthy hfault₂ (by simp [hhash]) (?_ : _ = Except.ok (none, e₂.pre)))
    unfold Statement.rotate
    rw [ht₂]
    simp [rotatable, hrevoked₂]
  rcases hreplay hnone with ⟨r₃, hcalled₃, hrevoke⟩
  rcases hcalled₃.located with ⟨e₃, rest₃, he₃, hi₃, hdid₃⟩
  rcases hread he₃ hi₃ hdid₃ with ⟨_, _, ⟨d₃, hfault₃, hres₃⟩, t₃, ht₃, huser₃, hrevoked₃⟩
  have hfound : r₃ = .ok (some (userId, true)) := by
    rw [hres₃]
    refine congrArg Prod.fst (query_healthy hfault₃ (by simp [hhash]) ?_)
    unfold Statement.findByHashAny
    rw [ht₃]
    simp [huser₃, hrevoked₃]
  rcases hrevoke userId hfound with ⟨n, hcalled₄⟩
  rcases hcalled₄.located with ⟨v, restv, hv, hvi, hdid₄⟩
  rcases hread hv hvi hdid₄ with ⟨hafter, _, ⟨d₄, hfault₄, hres₄⟩, _⟩
  refine ⟨v, restv, hv.trans (suffix_tail hrestf), hvi.trans hfi, ?_, hafter⟩
  have hrevoked : ∃ count, n = .ok count := by
    rw [hres₄]
    exact ⟨_, congrArg Prod.fst (run_healthy hfault₄ (by simp [hstorable.2]) rfl)⟩
  rcases hrevoked with ⟨count, rfl⟩
  exact ⟨count, hdid₄⟩

end Reachable

/--
A refresh replay kills the whole family: once a request that presents a token which was rotated before
has been answered, no token that descends from it is usable. This holds if the client of the request
authenticates and none of its statements fails, and if no grant that had rotated a token of the family
before all tokens were revoked has stored the successor only afterwards.
-/
theorem refresh_replay_kills_family (cfg : Config) (s : Server) (m : AuthMachine)
    (h : AuthMachine.Reachable cfg s m) (req : TokenRequest) (presented : String)
    (hgrant : req.grantType = "refresh_token") (htoken : req.refreshToken = some presented)
    (st : AuthEntry) (rest₀ : List AuthEntry) (hst : st :: rest₀ <:+ m.log)
    (hw : st.what = .start (.token req)) (r : AuthEntry) (hr : r ∈ rest₀)
    (userId rotatedClientId : String)
    (hrot : Rotated r (cfg.sha256Text presented) userId rotatedClientId)
    (f : AuthEntry) (hf : f ∈ m.log) (hfi : f.thread = st.thread) (a : Response)
    (hfw : f.what = .finish a) (clientId : String) (hid : req.clientId = some clientId)
    (client : OAuth2Client) (hclient : st.pre.oauth2Clients.lookup clientId = some client)
    (hsecret : token.secretMatches cfg (req.clientSecret.getD "") (some client.clientSecretHash) = true)
    (hstorable : storable clientId = true ∧ storable userId = true)
    (hhealthy : ∀ e ∈ m.log, e.thread = st.thread → ∀ ev d, e.what = .call ev d → d.fault = none)
    (hstraggle : ∀ v restv, v :: restv <:+ m.log → v.thread = st.thread → AllRevoked v userId →
      ∀ tokenHash, Relation.ReflTransGen (Succeeds m.log) (cfg.sha256Text presented) tokenHash →
        ¬Straggles m.log v restv tokenHash) :
    ∀ tokenHash, Relation.TransGen (Succeeds m.log) (cfg.sha256Text presented) tokenHash →
      ∀ t, m.store.refreshTokens.lookup tokenHash = some t → rotatable m.store.now t = false := by
  intro tokenHash hdescends t ht
  rcases h.replay_revokes hst hw hgrant htoken hr hrot hf hfi hfw hid hclient hsecret hstorable
    hhealthy with ⟨v, restv, hv, hvi, hrevoked, hafter⟩
  have hvmem := hv.mem List.mem_cons_self
  rcases hrot.spec (h.sound ((suffix_tail hst).mem hr)) with ⟨_, _, _, huser, _, hpost⟩
  rcases (h.evolves hv ((suffix_tail hafter).mem hr)).refreshTokens _ _ hpost with ⟨tv, htv, hkept⟩
  rcases h.family hv hrevoked ⟨tv, htv, hkept.userId.trans huser⟩ (hstraggle v restv hv hvi hrevoked)
    hdescends.to_reflTransGen with ⟨t₁, ht₁, huser₁⟩
  rcases hrevoked.spec (h.sound hvmem) ht₁ huser₁ with ⟨t₂, ht₂, hisSome⟩
  rcases ((evolution cfg).log h hvmem).2.refreshTokens _ _ ht₂ with ⟨t₃, ht₃, hkept₃⟩
  rw [ht] at ht₃
  injection ht₃ with ht₃
  subst ht₃
  rcases Option.isSome_iff_exists.mp hisSome with ⟨at_, hat⟩
  simp [rotatable, hkept₃.revokedAt at_ hat]

namespace Sample

/--
A token is rotated.
-/
def rotated : AuthMachine :=
  serve AuthRequest.handle (init refreshServer) 1 (.token (refreshGrant 1)) 2 15

/--
The token is replayed once the grant was answered.
-/
def replayed : AuthMachine :=
  serve AuthRequest.handle rotated 2 (.token (refreshGrant 1)) 4 5

def isCreate (e : AuthEntry) : Bool :=
  match e.what with
  | .call ⟨.refresh (.create ..), _⟩ _ => true
  | _ => false

theorem rotating_start :
    ⟨1, refreshServer, .start (.token (refreshGrant 1))⟩ :: [] <:+ rotating.log :=
  serve_start (m := init refreshServer) rfl

theorem straggling_start :
    ⟨2, rotating.store, .start (.token (refreshGrant 1))⟩ :: rotating.log <:+ straggling.log :=
  (serve_start (by rw [rotating, serve_threads (by decide)]; rfl)).trans (reaches_runs _ _).suffix

theorem replayed_reachable : AuthMachine.Reachable config refreshServer replayed :=
  reachable_serve (reachable_serve reachable_init)

theorem replayed_start :
    ⟨2, rotated.store, .start (.token (refreshGrant 1))⟩ :: rotated.log <:+ replayed.log :=
  serve_start (by rw [rotated, serve_threads (by decide)]; rfl)

/--
The only thread that stores a token was answered before the replay.
-/
theorem replayed_not_straggles (hanswered : rotated.log.any (answers 1 200) = true)
    (hcreates : replayed.log.all (fun e => !isCreate e || e.thread == 1) = true) {v : AuthEntry}
    {restv : List AuthEntry} (hv : v :: restv <:+ replayed.log) (hi : v.thread = 2)
    (hrevoked : AllRevoked v userId) (tokenHash : String)
    : ¬Straggles replayed.log v restv tokenHash := by
  rintro ⟨_, _, e', rest', he', hbefore, _, _, _, _, _, _, d, hw⟩
  rcases hrevoked with ⟨n, hdid⟩
  have hafter := replayed_reachable.call_after_start replayed_start rfl hv hi hdid
  rcases List.any_eq_true.mp hanswered with ⟨f, hf, hfinish⟩
  rcases of_answers hfinish with ⟨hfi, a, hfw, _⟩
  have hlast := Reaches.finish_last replayed_reachable he'
    ((suffix_tail hbefore).mem ((suffix_tail hafter).mem hf)) hfw
  have := List.all_eq_true.mp hcreates e' (he'.mem List.mem_cons_self)
  simp only [isCreate, hw, Bool.not_true, Bool.false_or, beq_iff_eq] at this
  exact hlast (this.trans hfi.symm)

end Sample

open Sample in
theorem refresh_replay_kills_family_replayed :
    replayed.log.any (answers 2 401) = true
    ∧ ∀ tokenHash, Relation.TransGen (Succeeds replayed.log)
        (config.sha256Text (issueTokens.refreshToken (raw 1))) tokenHash →
      ∀ t, replayed.store.refreshTokens.lookup tokenHash = some t →
        rotatable replayed.store.now t = false := by
  have hchecks : rotated.log.any (answers 1 200) = true
      ∧ replayed.log.all (fun e => !isCreate e || e.thread == 1) = true
      ∧ rotated.log.any (rotates 1 (tokenHash 1)) = true
      ∧ replayed.log.any (answers 2 401) = true
      ∧ replayed.log.all healthy = true
      ∧ (rotated.store.oauth2Clients.lookup clientId).any (fun client =>
        token.secretMatches config clientSecret (some client.clientSecretHash)) = true := by
    decide +kernel
  rcases hchecks with ⟨hserved, hcreates, hrotated, hanswered, hhealthy, hclient⟩
  rcases List.any_eq_true.mp hrotated with ⟨r, hr, hrot⟩
  rcases List.any_eq_true.mp hanswered with ⟨f, hf, hfinish⟩
  rcases of_answers hfinish with ⟨hfi, a, hfw, _⟩
  rcases (Option.any_eq_true _ _).mp hclient with ⟨client, hclient, hsecret⟩
  exact ⟨hanswered,
    refresh_replay_kills_family config refreshServer replayed replayed_reachable (refreshGrant 1)
      (issueTokens.refreshToken (raw 1)) rfl rfl _ _ replayed_start rfl r hr userId clientId
      (of_rotates hrot).2 f hf hfi a hfw clientId rfl client hclient hsecret (by decide +kernel)
      (fun e he _ ev d hw => of_healthy (List.all_eq_true.mp hhealthy e he) hw)
      (fun v restv hv hvi hrevoked tokenHash _ => replayed_not_straggles hserved hcreates hv hvi
        hrevoked tokenHash)⟩

open Sample in
/--
A token survives a replay if it is stored after all tokens were revoked.
-/
theorem straggler_survives :
    ¬∀ m, AuthMachine.Reachable config refreshServer m → ∀ req presented,
      req.grantType = "refresh_token" → req.refreshToken = some presented →
      ∀ st rest₀, st :: rest₀ <:+ m.log → st.what = .start (.token req) →
      ∀ r ∈ rest₀, Grants config m.log r.thread (config.sha256Text presented) →
      Rotated r (config.sha256Text presented) userId clientId →
      ∀ f ∈ m.log, f.thread = st.thread → (∃ a, f.what = .finish a) →
      ∀ tokenHash, Relation.TransGen (Succeeds m.log) (config.sha256Text presented) tokenHash →
        ∀ t, m.store.refreshTokens.lookup tokenHash = some t → rotatable m.store.now t = false := by
  intro hclaim
  have hchecks : rotating.log.any (rotates 1 (tokenHash 1)) = true
      ∧ straggling.log.any (answers 2 401) = true
      ∧ straggling.log.any (creates 1 (tokenHash 2)) = true
      ∧ (straggling.store.refreshTokens.lookup (tokenHash 2)).any
        (fun t => rotatable straggling.store.now t) = true := by
    decide +kernel
  rcases hchecks with ⟨hrotated, hanswered, hcreated, halive⟩
  rcases List.any_eq_true.mp hrotated with ⟨r, hr, hrot⟩
  rcases of_rotates hrot with ⟨hri, hrot⟩
  rcases List.any_eq_true.mp hanswered with ⟨f, hf, hfinish⟩
  rcases of_answers hfinish with ⟨hfi, a, hfw, _⟩
  rcases List.any_eq_true.mp hcreated with ⟨e, he, hcreates⟩
  rcases of_creates hcreates with ⟨hei, hcreates⟩
  have hsucceeds : Succeeds straggling.log (tokenHash 1) (tokenHash 2) :=
    ⟨r, (suffix_tail straggling_start).mem hr, e, he, hei.trans hri.symm, ⟨_, _, hrot⟩, _, _, hcreates⟩
  have hgrants : Grants config straggling.log r.thread (tokenHash 1) :=
    ⟨_, ⟨_, (suffix_tail straggling_start).mem (rotating_start.mem List.mem_cons_self), hri.symm, rfl⟩,
      refreshGrant 1, _, rfl, rfl, rfl, rfl⟩
  rcases (Option.any_eq_true _ _).mp halive with ⟨t, ht, hrotatable⟩
  have hdead := hclaim straggling straggling_reachable (refreshGrant 1)
    (issueTokens.refreshToken (raw 1)) rfl rfl _ _ straggling_start rfl r hr hgrants hrot f hf hfi
    ⟨a, hfw⟩ (tokenHash 2) (.single hsucceeds) t ht
  exact Bool.false_ne_true (hdead.symm.trans hrotatable)

end Aspectus
