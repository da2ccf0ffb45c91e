import Aspectus.Security.Refresh

/-!
This module contains what a logout that is answered with success guarantees: it does as long as the statement
that revokes the token does not fail, whose failure the handler ignores.
-/

namespace Aspectus

open Interaction Machine Statement

variable {cfg : Config} {s : Server} {m m' : AuthMachine}

/--
The refresh token with this hash cannot be exchanged in this state.
-/
def Spent (tokenHash : String) (s : Server) : Prop :=
  ∀ t, s.refreshTokens.lookup tokenHash = some t → rotatable s.now t = false

/--
An entry that issues nothing.
-/
def IssuesNothing (e : AuthEntry) : Prop :=
  (∀ tokenHash userId clientId, ¬RefreshCreated e tokenHash userId clientId)
    ∧ (∀ claims, ¬Signed e claims)
    ∧ ∀ a t, e.what = .finish a → a.body ≠ .userTokens t

/--
No refresh grant that starts after the entry `e` and presents the token issues anything.
-/
def UnusableAfter (cfg : Config) (log : List AuthEntry) (e : AuthEntry) (tokenHash : String) : Prop :=
  ∀ st rest q, st :: rest <:+ log → e ∈ rest → st.what = .start q → Presents cfg q tokenHash →
    ∀ g ∈ log, g.thread = st.thread → IssuesNothing g

/--
A token that is not exchangeable stays so, unless it is stored anew.
-/
theorem Spent.post {tokenHash : String} {e : AuthEntry} (hs : Entry.Sound (semantics cfg) e)
    (hnew : ¬∃ userId clientId, RefreshCreated e tokenHash userId clientId) (h : Spent tokenHash e.pre)
    : Spent tokenHash (e.post (semantics cfg)) := by
  intro t' ht'
  have hevolves : Evolves e.pre (e.post (semantics cfg)) := (evolution cfg).post e
  cases hpre : e.pre.refreshTokens.lookup tokenHash with
  | none =>
    have := refreshToken_created hs hpre ht'
    contradiction
  | some t =>
    rcases hevolves.refreshTokens _ _ hpre with ⟨t'', ht'', hkept⟩
    rw [ht'] at ht''
    injection ht'' with ht''
    subst ht''
    have hspent := h t hpre
    have hnow := hevolves.now
    have hexpires := hkept.expiresAt
    unfold rotatable at hspent ⊢
    cases hrevoked : t.revokedAt with
    | some at_ =>
      rw [hkept.revokedAt at_ hrevoked]
      rfl
    | none =>
      simp only [hrevoked, Option.isNone_none, Bool.true_and, decide_eq_false_iff_not] at hspent
      have hexpired : ¬(e.post (semantics cfg)).now < t'.expiresAt := by
        rw [hexpires]
        intro hlive
        exact hspent (Int.lt_of_le_of_lt hnow hlive)
      simp [hexpired]

theorem Spent.advance {tokenHash : String} (h : Spent tokenHash s) (n : Nat) :
    Spent tokenHash (s.advance n) := by
  intro t ht
  have hspent := h t ht
  have hnow : s.now ≤ s.now + (n : Int) := Int.le_add_of_nonneg_right (Int.natCast_nonneg n)
  unfold rotatable at hspent ⊢
  simp only [Bool.and_eq_false_iff, decide_eq_false_iff_not] at hspent ⊢
  cases hspent with
  | inl hrevoked => exact .inl hrevoked
  | inr hexpired =>
    right
    intro hlive
    exact hexpired (Int.lt_of_le_of_lt hnow hlive)

/--
The statement of a logout leaves no token that can be exchanged, unless it fails.
-/
theorem spent_of_rotate {tokenHash : String} {d : Draw} {r : Option (String × String × String)}
    (h : ((RefreshOp.rotate tokenHash).exec d s).1 = .ok r)
    : Spent tokenHash ((RefreshOp.rotate tokenHash).exec d s).2 := by
  change (Statement.run d [tokenHash] (rotate tokenHash) s).1 = .ok r at h
  change Spent tokenHash (Statement.run d [tokenHash] (rotate tokenHash) s).2
  rcases rotate_ok (run_ok h) with ⟨_, hsame, hspent⟩ | ⟨t, ht, _, _, hpost⟩
  . rw [hsame]
    exact hspent
  . rw [hpost]
    intro t' ht'
    simp only [Table.lookup_updateAt, if_true, ht, Option.map_some, Option.some.injEq] at ht'
    subst ht'
    rfl

section Reachable

variable (h : AuthMachine.Reachable cfg s m)
include h

/--
A token is spent from the entry that spends it on.
-/
theorem AuthMachine.Reachable.stays_spent {c : AuthEntry} {rest : List AuthEntry} (hc : c :: rest <:+ m.log)
    {tokenHash : String} (hspent : Spent tokenHash (c.post (semantics cfg)))
    (hnew : ∀ e rest', e :: rest' <:+ m.log → c ∈ rest' →
      ¬∃ userId clientId, RefreshCreated e tokenHash userId clientId)
    : ∀ e rest', e :: rest' <:+ m.log → c :: rest <:+ rest' → Spent tokenHash e.pre := by
  refine (h.persists (P := Spent tokenHash)
    (B := fun e => ¬Entry.Sound (semantics cfg) e
      ∨ ∃ userId clientId, RefreshCreated e tokenHash userId clientId) ?_ ?_ hc hspent ?_).2
  . intro e hbad hpre
    rw [not_or, not_not] at hbad
    exact hpre.post hbad.1 hbad.2
  . intro n s' hs'
    exact hs'.advance n
  . intro e rest' he hold hbad
    cases hbad with
    | inl hsound => exact hsound (h.sound (he.mem List.mem_cons_self))
    | inr hcreated => exact hnew e rest' he hold hcreated

/--
A grant that only could rotate its token after it was spent issues nothing.
-/
theorem AuthMachine.Reachable.issues_nothing {st g : AuthEntry} {rest : List AuthEntry} {q : AuthRequest}
    {tokenHash : String} (hst : st :: rest <:+ m.log) (hq : st.what = .start q) (hpresents : Presents cfg q tokenHash)
    (hspent : ∀ r restr, r :: restr <:+ m.log → st :: rest <:+ restr → Spent tokenHash r.pre)
    (hg : g ∈ m.log) (hthread : g.thread = st.thread)
    : IssuesNothing g := by
  have hgrants : Grants cfg m.log g.thread tokenHash :=
    ⟨q, ⟨st, hst.mem List.mem_cons_self, hthread.symm, hq⟩, hpresents⟩
  rcases suffix_of_mem hg with ⟨restg, hrestg⟩
  have blocked : ∀ userId clientId, ¬∃ r ∈ restg, r.thread = g.thread ∧ Rotated r tokenHash userId clientId := by
    rintro userId clientId ⟨r, hr, hi, hrot⟩
    rcases suffix_of_mem hr with ⟨restr, hrestr⟩
    have hrestr := hrestr.trans (suffix_tail hrestg)
    rcases hrot.spec (h.sound (hrestr.mem List.mem_cons_self)) with ⟨t, ht, hrotatable, _⟩
    rcases Reaches.after_start h hst hq hrestr (hi.trans hthread) with ⟨rfl, _⟩ | hafter
    . rcases hrot with ⟨_, _, hw⟩
      rw [hq] at hw
      contradiction
    . have := hspent r restr hrestr hafter t ht
      rw [hrotatable] at this
      contradiction
  refine ⟨?_, ?_, ?_⟩
  . intro tokenHash' userId clientId hcreated
    exact blocked _ _ (h.successor hrestg hcreated hgrants)
  . intro claims hsigned
    rcases h.signed_successor hrestg hsigned hgrants with ⟨clientId, hrot⟩
    exact blocked _ _ hrot
  . intro a t hw hbody
    rcases h.answered hrestg hw with ⟨q', hq', hanswered⟩
    unfold Answered at hanswered
    rw [hbody] at hanswered
    rcases hanswered.authorized with ⟨clientId, _, hauth, _⟩
    exact blocked _ _ (h.rotation (suffix_tail hrestg) hq' hauth hgrants)

end Reachable

/--
What a logout that is answered guarantees: it reports that the token could not be revoked, and if it reports
success then no refresh grant that starts later and presents the token issues anything.
-/
def LogoutSound (cfg : Config) (i : Nat) (tokenHash : String) (failed : Prop) (log : List AuthEntry) : Prop :=
  ∀ e ∈ log, e.thread = i → ∀ a, e.what = .finish a →
    (failed → 400 ≤ a.status) ∧ (a.status < 400 → UnusableAfter cfg log e tokenHash)

/--
No token is stored under this hash after the log was the given one.
-/
def NotReissued (tokenHash : String) (log log' : List AuthEntry) : Prop :=
  ∀ e rest, e :: rest <:+ log' → log <:+ rest → ¬∃ userId clientId, RefreshCreated e tokenHash userId clientId

section Logout

variable {i : Nat} {req : LogoutRequest} {d : Draw}

/--
An entry that is newer than the old part of a log is in the new part.
-/
theorem mem_of_newer {α : Type} {a : α} {rest new old : List α} (h : a :: rest <:+ new ++ old)
    (hold : old <:+ rest)
    : a ∈ new := by
  rcases h with ⟨newer, hlog⟩
  rcases hold with ⟨between, rfl⟩
  rw [← List.cons_append, ← List.append_assoc] at hlog
  rw [← List.append_cancel_right hlog]
  simp

theorem logout_creates_nothing (h : AuthMachine.Reachable cfg s m) {e : AuthEntry} {rest : List AuthEntry}
    (he : e :: rest <:+ m.log) (hq : Started m.log e.thread (.logout req))
    : ¬∃ tokenHash userId clientId, RefreshCreated e tokenHash userId clientId := by
  rintro ⟨tokenHash, userId, clientId, hcreated⟩
  rcases h.created he hcreated with ⟨q, hq', ⟨tenantId, hauth⟩, _, _⟩
  have := h.request hq (suffix_tail he) hq'
  subst this
  cases hauth

theorem logout_answers (h : AuthMachine.Reachable cfg s m) {e : AuthEntry} {rest : List AuthEntry}
    (he : e :: rest <:+ m.log) (hq : Started m.log e.thread (.logout req)) {a : Response}
    (hw : e.what = .finish a)
    : a = .noContent := by
  have spec : ∀ q, (AuthRequest.handle cfg q).Conforms (fun _ _ => True)
      (fun _ a => ∀ req, q = .logout req → a = .noContent) [] := by
    intro q
    by_cases hlogout : ∃ req, q = .logout req
    . rcases hlogout with ⟨req, rfl⟩
      change (logout cfg req).Conforms _ _ _
      unfold logout
      apply Prog.conforms_perform_bind trivial
      intro _
      split
      . split
        . apply Prog.Uses.conforms_bind (Prog.uses_of_forall (U := fun _ => True) (fun _ => trivial) _)
          . intros
            trivial
          . intros
            intro _ _
            rfl
        . intro _ _
          rfl
      . intro _ _
        rfl
    . apply Prog.conforms_of_append
      intro _ _ req hreq
      exact absurd ⟨req, hreq⟩ hlogout
  rcases Reaches.finished spec h he hw with ⟨q, hq', hanswer⟩
  exact hanswer req (Reaches.started_unique h (hq'.of_suffix (suffix_tail he)) hq)

/--
The state after the statement of a logout.
-/
theorem logout_step (hrun : m.threads i = some ⟨.logout req, some (logout cfg req)⟩) :
    (act (semantics cfg) (AuthRequest.handle cfg) m (.step i d)).log
        = ⟨i, m.store, .call ⟨.refresh (.rotate (cfg.sha256Text req.refreshToken)),
            ((RefreshOp.rotate (cfg.sha256Text req.refreshToken)).exec d m.store).1⟩ d⟩ :: m.log
      ∧ ∃ p, (act (semantics cfg) (AuthRequest.handle cfg) m (.step i d)).threads i
          = some ⟨.logout req, some p⟩ := by
  unfold logout App.refresh at hrun
  rw [Prog.perform_bind] at hrun
  unfold act
  simp only [hrun, Function.update_self]
  exact ⟨rfl, _, rfl⟩

/--
In every run after its statement a logout is sound if and only if that statement does not fail.
-/
theorem logout_revokes (cfg : Config) (s : Server) (m : AuthMachine) (h : AuthMachine.Reachable cfg s m)
    (i : Nat) (req : LogoutRequest)
    (hrun : m.threads i = some ⟨.logout req, some (logout cfg req)⟩) (d : Draw) :
    (∀ m', Reaches (semantics cfg) (AuthRequest.handle cfg)
        (act (semantics cfg) (AuthRequest.handle cfg) m (.step i d)) m' →
      NotReissued (cfg.sha256Text req.refreshToken) m.log m'.log →
      LogoutSound cfg i (cfg.sha256Text req.refreshToken)
        (∃ msg, ((RefreshOp.rotate (cfg.sha256Text req.refreshToken)).exec d m.store).1 = .error msg) m'.log)
      ↔
    ∃ r, ((RefreshOp.rotate (cfg.sha256Text req.refreshToken)).exec d m.store).1 = .ok r := by
  generalize hhash : cfg.sha256Text req.refreshToken = tokenHash
  rcases logout_step (d := d) hrun with ⟨hlog, p, hp⟩
  rw [hhash] at hlog
  have h₁ : AuthMachine.Reachable cfg s (act (semantics cfg) (AuthRequest.handle cfg) m (.step i d)) :=
    .act h _
  constructor
  . intro hsound
    cases hanswer : ((RefreshOp.rotate tokenHash).exec d m.store).1 with
    | ok r => exact ⟨r, rfl⟩
    | error msg =>
      -- The thread goes on to its answer, which is a success.
      rcases @exists_finish _ _ _ _ _ (semantics cfg) (AuthRequest.handle cfg) d i _ _ _ hp with
        ⟨m', new, hreaches, hlog', hnew, e, he, a, hw⟩
      have h' : AuthMachine.Reachable cfg s m' := h₁.trans hreaches
      have hall : ∀ e ∈ new ++ [⟨i, m.store, .call ⟨.refresh (.rotate tokenHash),
          ((RefreshOp.rotate tokenHash).exec d m.store).1⟩ d⟩], e.thread = i := by
        simp only [List.forall_mem_append, List.forall_mem_singleton]
        exact ⟨hnew, trivial⟩
      have hstarted : Started m'.log i (.logout req) := by
        apply (h.served.started i _ hrun).of_suffix
        rw [hlog', hlog]
        exact (List.suffix_cons _ _).trans (List.suffix_append _ _)
      have hreissued : NotReissued tokenHash m.log m'.log := by
        intro e' rest' he' hold hcreated
        have hthread : e'.thread = i := by
          apply hall
          apply mem_of_newer _ hold
          rw [List.append_assoc, List.singleton_append, ← hlog, ← hlog']
          exact he'
        apply logout_creates_nothing h' he' (hthread ▸ hstarted)
        exact ⟨_, hcreated⟩
      have hmem : e ∈ m'.log := by
        rw [hlog']
        apply List.mem_append_left _ he
      rcases suffix_of_mem hmem with ⟨rest, hrest⟩
      have hfailed := (hsound m' hreaches hreissued e hmem (hnew e he) a hw).1 ⟨msg, hanswer⟩
      rw [logout_answers h' hrest (hnew e he ▸ hstarted) hw] at hfailed
      exact absurd hfailed (by decide)
  . rintro ⟨r, hanswer⟩ m' hreaches hreissued e he hi a hw
    have h' : AuthMachine.Reachable cfg s m' := h₁.trans hreaches
    have hc := hreaches.suffix
    rw [hlog] at hc
    constructor
    . rintro ⟨msg, hfailed⟩
      rw [hanswer] at hfailed
      contradiction
    . intro _ st rest q hst hest hq hpresents g hg hthread
      -- The answer comes after the statement, and the grant after the answer.
      have hafter : ⟨i, m.store, .call ⟨.refresh (.rotate tokenHash),
          ((RefreshOp.rotate tokenHash).exec d m.store).1⟩ d⟩ :: m.log <:+ rest := by
        rcases suffix_of_mem hest with ⟨reste, hreste⟩
        rcases suffix_trichotomy hc (hreste.trans (suffix_tail hst)) with ⟨heq, _⟩ | hold | hold
        . rw [← heq] at hw
          contradiction
        . rcases h.served.answered e (hold.mem List.mem_cons_self) a hw with ⟨q', hq'⟩
          rw [hi, hrun] at hq'
          simp at hq'
        . exact hold.trans ((List.suffix_cons _ _).trans hreste)
      generalize hentry : (⟨i, m.store, .call ⟨.refresh (.rotate tokenHash),
        ((RefreshOp.rotate tokenHash).exec d m.store).1⟩ d⟩ : AuthEntry) = c at hc hafter
      have hdid : Did c (.refresh (.rotate tokenHash)) ((RefreshOp.rotate tokenHash).exec d m.store).1 :=
        ⟨d, by rw [← hentry]⟩
      have hnotearlier : c ∉ m.log := by
        intro hmem
        rcases h'.allowed hc hdid with ⟨_, _, hallowed⟩
        have := absent_eventsOf hallowed.first hmem rfl hdid
        contradiction
      have hspent : Spent tokenHash (c.post (semantics cfg)) := by
        rw [← hentry]
        exact spent_of_rotate hanswer
      apply h'.issues_nothing hst hq hpresents ?_ hg hthread
      intro r' restr hr' hold
      apply h'.stays_spent hc hspent ?_ r' restr hr' (hafter.trans ((List.suffix_cons _ _).trans hold))
      intro e' rest' he' hce'
      apply hreissued e' rest' he'
      cases List.suffix_or_suffix_of_suffix (suffix_tail hc) (suffix_tail he') with
      | inl hold => exact hold
      | inr hearlier => exact absurd (hearlier.mem hce') hnotearlier

end Logout

namespace Sample

def logoutRequest : LogoutRequest :=
  ⟨issueTokens.refreshToken (raw 1), none⟩

def loggingOut : AuthMachine :=
  act (semantics config) (AuthRequest.handle config) (init refreshServer) (.start 1 (.logout logoutRequest))

theorem loggingOut_reachable : AuthMachine.Reachable config refreshServer loggingOut :=
  .act .refl _

theorem loggingOut_thread :
    loggingOut.threads 1 = some ⟨.logout logoutRequest, some (logout config logoutRequest)⟩ := by
  rfl

/--
The logout is answered, `fault` is drawn for its statement.
-/
def loggedOut (fault : Option String) : AuthMachine :=
  act (semantics config) (AuthRequest.handle config)
    (act (semantics config) (AuthRequest.handle config) loggingOut (.step 1 { draw 2 with fault := fault }))
    (.step 1 (draw 2))

/--
The token is presented after the logout.
-/
def presentedAgain (fault : Option String) : AuthMachine :=
  serve AuthRequest.handle (loggedOut fault) 2 (.token (refreshGrant 1)) 3 15

theorem presentedAgain_reaches (fault : Option String) :
    Reaches (semantics config) (AuthRequest.handle config)
      (act (semantics config) (AuthRequest.handle config) loggingOut (.step 1 { draw 2 with fault := fault }))
      (presentedAgain fault) :=
  (Reaches.act .refl _).trans ((Reaches.act .refl _).trans (reaches_runs _ _))

theorem loggedOut_free (fault : Option String) : ((loggedOut fault).threads 2).isNone = true := by
  unfold loggedOut loggingOut
  rw [act_threads_ne rfl (by decide), act_threads_ne rfl (by decide), act_threads_ne rfl (by decide)]
  rfl

def reissues (tokenHash : String) (e : AuthEntry) : Bool :=
  match e.what with
  | .call ⟨.refresh (.create h ..), _⟩ _ => h = tokenHash
  | _ => false

theorem notReissued_of_check {tokenHash : String} {log log' : List AuthEntry}
    (h : log'.any (reissues tokenHash) = false) : NotReissued tokenHash log log' := by
  intro e rest he _ hcreated
  rcases hcreated with ⟨_, _, _, d, hw⟩
  have := List.any_eq_false.mp h e (he.mem List.mem_cons_self)
  simp [reissues, hw] at this

end Sample

open Sample in
theorem logout_revokes_healthy :
    (presentedAgain none).log.any (answers 1 204) = true
      ∧ LogoutSound config 1 (config.sha256Text logoutRequest.refreshToken)
        (∃ msg, ((RefreshOp.rotate (config.sha256Text logoutRequest.refreshToken)).exec
          { draw 2 with fault := none } loggingOut.store).1 = .error msg) (presentedAgain none).log := by
  have hchecks : (presentedAgain none).log.any (answers 1 204) = true
      ∧ (presentedAgain none).log.any (reissues (config.sha256Text logoutRequest.refreshToken)) = false
      ∧ ((RefreshOp.rotate (config.sha256Text logoutRequest.refreshToken)).exec
          { draw 2 with fault := none } loggingOut.store).1.toBool = true := by
    decide +kernel
  rcases hchecks with ⟨hanswered, hreissued, hhealthy⟩
  refine ⟨hanswered, ?_⟩
  apply (logout_revokes config refreshServer loggingOut loggingOut_reachable 1 logoutRequest loggingOut_thread
    { draw 2 with fault := none }).mpr ?_ (presentedAgain none) (presentedAgain_reaches none) (notReissued_of_check hreissued)
  generalize ((RefreshOp.rotate (config.sha256Text logoutRequest.refreshToken)).exec
    { draw 2 with fault := none } loggingOut.store).1 = answer at hhealthy
  cases answer with
  | ok r => exact ⟨r, rfl⟩
  | error msg => cases hhealthy

open Sample in
/--
The statement of a logout fails, the logout is answered with success, and the token is exchanged after it.
-/
theorem logout_ignores_failure :
    ¬∀ (cfg : Config) (s : Server) (m : AuthMachine), AuthMachine.Reachable cfg s m → ∀ i req,
      m.threads i = some ⟨.logout req, some (logout cfg req)⟩ → ∀ d m',
      Reaches (semantics cfg) (AuthRequest.handle cfg)
        (act (semantics cfg) (AuthRequest.handle cfg) m (.step i d)) m' →
      NotReissued (cfg.sha256Text req.refreshToken) m.log m'.log →
      ∀ e ∈ m'.log, e.thread = i → ∀ a, e.what = .finish a → a.status < 400 →
        UnusableAfter cfg m'.log e (cfg.sha256Text req.refreshToken) := by
  intro hclaim
  have hchecks : (loggedOut (some "connection closed")).log.any (answers 1 204) = true
      ∧ (presentedAgain (some "connection closed")).log.any (answersTokens 2) = true
      ∧ (presentedAgain (some "connection closed")).log.any
        (reissues (config.sha256Text logoutRequest.refreshToken)) = false := by
    decide +kernel
  rcases hchecks with ⟨hanswered, hissued, hreissued⟩
  rcases List.any_eq_true.mp hanswered with ⟨e, he, hfinish⟩
  rcases of_answers hfinish with ⟨hi, a, hw, hstatus⟩
  rcases List.any_eq_true.mp hissued with ⟨g, hg, htokens⟩
  rcases of_answersTokens htokens with ⟨hthread, _, t, hgw, _⟩
  have hst : ⟨2, (loggedOut (some "connection closed")).store, .start (.token (refreshGrant 1))⟩
      :: (loggedOut (some "connection closed")).log <:+ (presentedAgain (some "connection closed")).log :=
    serve_start (loggedOut_free (some "connection closed"))
  have hunusable := hclaim config refreshServer loggingOut loggingOut_reachable 1 logoutRequest loggingOut_thread _ _
    (presentedAgain_reaches (some "connection closed")) (notReissued_of_check hreissued) e
    ((suffix_tail hst).mem he) hi a hw (by omega)
  exact (hunusable _ _ _ hst he rfl ⟨_, _, rfl, rfl, rfl, rfl⟩ g hg hthread).2.2 _ t hgw rfl

end Aspectus
