import Aspectus.Security.Sample
import Aspectus.Security.TokenEffects

/-!
This module contains in which order the requests for the service token of a project take effect if they
are served concurrently.
-/

namespace Aspectus

open Interaction Prog Machine Statement

/--
A request for the admin token is rejected right away.
-/
theorem run_rejected (cfg : Config) {q : ProjectTokenRequest} (hq : q.project = some .aspectus)
    (draws : Nat → Draw) (s : Server)
    : ((q.handle cfg).run (semantics cfg) draws s).1.status = ErrorCode.validationFailed.httpStatus
        ∧ ((q.handle cfg).run (semantics cfg) draws s).2.2 = s := by
  cases q with
  | create name =>
    unfold ProjectTokenRequest.handle ServiceTokens.create
    dsimp only
    rw [ServiceTokens.parseProject_ok hq]
    exact ⟨rfl, rfl⟩
  | rotate name =>
    unfold ProjectTokenRequest.handle ServiceTokens.rotate
    dsimp only
    rw [ServiceTokens.parseProjectParam_ok hq]
    exact ⟨rfl, rfl⟩
  | revoke name =>
    unfold ProjectTokenRequest.handle ServiceTokens.revoke
    dsimp only
    rw [ServiceTokens.parseProjectParam_ok hq]
    exact ⟨rfl, rfl⟩
  | _ => contradiction

namespace TokenMachine

variable {cfg : Config} {s : Server} {p : Project} {m : TokenMachine}
  (hm : TokenMachine.Reachable cfg s m)

/--
The turn of a thread, which begins in the store that the turn before has left.
-/
abbrev turnOf (m : TokenMachine) (d : Draw) (i : Nat) : Turn Server Draw ProjectTokenRequest :=
  m.turn .list d (fun _ s => s) i

include hm

/--
Served as a whole where it takes effect, a request gives the status it has been answered with, and
changes the row like it has changed it.
-/
theorem run_effect (hsteady : Steady p m.log) (d : Draw) {e : TokenEntry} {rest : List TokenEntry}
    (he : e :: rest <:+ m.log) (heffect : TakesEffect p m e rest) {s' : Server}
    (hrow : s'.rowState p = e.pre.rowState p)
    : (∀ f ∈ m.log, f.thread = e.thread → ∀ a, f.what = .finish a →
          (((turnOf m d e.thread).request.handle cfg).run (semantics cfg) (turnOf m d e.thread).draws
            s').1.status = a.status)
        ∧ (((turnOf m d e.thread).request.handle cfg).run (semantics cfg) (turnOf m d e.thread).draws
            s').2.2.rowState p = (e.post (semantics cfg)).rowState p := by
  rcases heffect with ⟨⟨q, hq, hproject⟩, heffect⟩
  rw [hm.turn_request hq]
  change (∀ f ∈ m.log, f.thread = e.thread → ∀ a, f.what = .finish a →
      ((q.handle cfg).run (semantics cfg) (drawn d e.thread m.log) s').1.status = a.status)
    ∧ ((q.handle cfg).run (semantics cfg) (drawn d e.thread m.log) s').2.2.rowState p = _
  -- What the events of an answered thread say.
  have hevents : ∀ f ∈ m.log, f.thread = e.thread → ∀ a, f.what = .finish a → ∃ rest',
      f :: rest' <:+ m.log ∧ TokenAnswered cfg q (eventsOf e.thread rest') a
        ∧ (e = f ∨ e ∈ rest') := by
    intro f hf hthread a ha
    rcases suffix_of_mem hf with ⟨rest', hrest'⟩
    have hanswered := answered hm hrest' (hthread ▸ hq) ha
    rw [hthread] at hanswered
    refine ⟨rest', hrest', hanswered, ?_⟩
    rcases suffix_trichotomy he hrest' with ⟨heq, _⟩ | hold | hold
    . exact .inl heq
    . exact absurd hthread.symm (hm.finish_last he (hold.mem List.mem_cons_self) ha)
    . exact .inr (hold.mem List.mem_cons_self)
  rcases heffect with (⟨tokenHash, tokenPrefix, old, hdid⟩ | ⟨b, hdid⟩) | ⟨hread, hfinished, hnot⟩
    | ⟨⟨a, ha⟩, hnot⟩
  . rcases upsert_outcome hm he hsteady hdid d with ⟨q', hq', _, hp, houtcome⟩
    cases hm.started_unique hq hq'
    rcases ServiceTokens.run_outcome cfg (drawn d e.thread m.log) s' hproject hp with ⟨hstatus, hrow'⟩
    rw [hrow, houtcome] at hstatus hrow'
    refine ⟨?_, hrow'⟩
    intro f hf hthread a ha
    rcases hevents f hf hthread a ha with ⟨rest', hrest', hanswered, heq | hmem⟩
    . rcases hdid with ⟨d', hw⟩
      rw [heq, ha] at hw
      injection hw
    . have hcalled := called_eventsOf.mpr ⟨e, hmem, rfl, hdid⟩
      rw [hstatus, (hanswered.concluded p hproject hp).1.status_upsert hcalled]
  . rcases revoke_outcome hm he hdid d with ⟨q', hq', _, hp, houtcome⟩
    cases hm.started_unique hq hq'
    rcases ServiceTokens.run_outcome cfg (drawn d e.thread m.log) s' hproject hp with ⟨hstatus, hrow'⟩
    rw [hrow, houtcome] at hstatus hrow'
    refine ⟨?_, hrow'⟩
    intro f hf hthread a ha
    rcases hevents f hf hthread a ha with ⟨rest', hrest', hanswered, heq | hmem⟩
    . rcases hdid with ⟨d', hw⟩
      rw [heq, ha] at hw
      injection hw
    . have hcalled := called_eventsOf.mpr ⟨e, hmem, rfl, hdid⟩
      rw [hstatus, (hanswered.concluded p hproject hp).1.status_revoke hcalled]
  . have hp := (before_read hm he hq hproject hread).1
    rcases ServiceTokens.run_outcome cfg (drawn d e.thread m.log) s' hproject hp with ⟨hstatus, hrow'⟩
    rcases hfinished with ⟨g, hg, hgthread, b, hgw⟩
    rcases suffix_of_mem hg with ⟨grest, hgrest⟩
    have houtcome := read_outcome hm he hq hproject hread hnot hgrest hgthread hgw d
    rw [hrow, houtcome] at hstatus hrow'
    have hkept : (e.post (semantics cfg)).rowState p = e.pre.rowState p := by
      rcases hread with ⟨r, d', hw⟩
      rw [post_call hw]
      exact rowState_exec nofun nofun nofun
    refine ⟨?_, hrow'.trans hkept.symm⟩
    intro f hf hthread a ha
    rcases suffix_of_mem hf with ⟨rest', hrest'⟩
    have houtcome' := read_outcome hm he hq hproject hread hnot hrest' hthread ha d
    rw [houtcome] at houtcome'
    injection houtcome' with hsame
    exact hstatus.trans hsame
  . -- A request that is answered without having read the row is one for the admin token.
    have hanswered := answered hm he hq ha
    have hp : p = .aspectus := by
      by_contra hp
      rcases (hanswered.concluded p hproject hp).1.read with ⟨r, hr⟩
      rcases called_eventsOf.mp hr with ⟨e', he', hthread, hdid⟩
      exact hnot e' ((suffix_tail he).mem he') hthread ⟨r, hdid⟩
    subst hp
    rcases run_rejected cfg hproject (drawn d e.thread m.log) s' with ⟨hstatus, hstore⟩
    rw [hstatus, hstore, hrow]
    have hpost : e.post (semantics cfg) = e.pre := by
      unfold Entry.post
      rw [ha]
    rw [hpost]
    refine ⟨?_, rfl⟩
    intro f hf hthread b hb
    rcases suffix_of_mem hf with ⟨rest', hrest'⟩
    have hrejected := (answered hm hrest' (hthread ▸ hq) hb).rejected hproject
    exact hrejected.symm

/--
Concurrent requests for the service token of a project take effect in some order.
-/
theorem linearizes (hsteady : Steady p m.log) (d : Draw) :
    Linearizes (semantics cfg) (ProjectTokenRequest.handle cfg) s m (fun q => q.project = some p)
      (turnOf m d) (fun a a' => a.status = a'.status) (fun s => s.rowState p)
      (pointOrder (TakesEffect p m) m.log) := by
  apply hm.linearizes
  . intros
    rfl
  . rintro e rest _ ⟨⟨q, hq, hproject⟩, _⟩
    rw [hm.turn_request hq]
    exact ⟨hq, hproject⟩
  . intro e rest he heffect e' rest' he' heffect'
    exact effect_unique hm he heffect he' heffect'
  . intro i q hq hproject hfinished
    exact effect_complete hq hproject hfinished
  . intro e rest he heffect
    exact rowState_unchanged hm he heffect
  . intro e rest he heffect s' hrow
    exact run_effect hm hsteady d he heffect hrow

/--
A request that stores a token finds the row as it expects it.
-/
theorem upsert_expects (hsteady : Steady p m.log) {e : TokenEntry} {rest : List TokenEntry}
    (he : e :: rest <:+ m.log) {tokenHash tokenPrefix : String} {old : Option String}
    (hdid : Did e (.serviceToken (.upsert p tokenHash tokenPrefix)) (.ok old))
    {q : ProjectTokenRequest} (hq : Started m.log e.thread q)
    : q.expects = some (e.pre.rowState p).active := by
  rcases before_upsert hm he hdid with ⟨q', hq', token, raw, _, hexpects, _, _, hevents⟩
  cases hm.started_unique hq hq'
  rcases mem_eventsOf.mp (show readRow p token ∈ eventsOf e.thread rest by simp [hevents]) with
    ⟨r, hr, hthread, d, hw⟩
  have hrlog := (suffix_tail he).mem hr
  have hview : RowState.ofStored token = r.pre.rowState p := by
    have hx : (⟨readRow p token, d, r.pre⟩ : Executed Api Server Draw) ∈ executedBy e.thread m.log :=
      mem_executedBy.mpr ⟨r, hrlog, hthread, hw, rfl⟩
    exact (executed_read hm hx rfl).2
  rw [hexpects, hview, hsteady e rest he _ _ _ hdid r hr hthread ⟨_, d, hw⟩]

/--
The token is revoked between any two requests that create it.
-/
theorem revoked_between (hsteady : Steady p m.log) {e e' : TokenEntry} {rest : List TokenEntry}
    (he : e :: rest <:+ m.log) (he' : e' ∈ rest) {tokenHash tokenPrefix tokenHash' tokenPrefix' : String}
    {old old' : Option String}
    (hdid : Did e (.serviceToken (.upsert p tokenHash tokenPrefix)) (.ok old))
    (hdid' : Did e' (.serviceToken (.upsert p tokenHash' tokenPrefix')) (.ok old'))
    {name : String} (hq : Started m.log e.thread (.create name))
    : ∃ r restr, r :: restr <:+ rest ∧ e' ∈ restr ∧ Did r (.serviceToken (.revoke p)) (.ok true) := by
  by_contra hnone
  have hexpects := upsert_expects hm hsteady he hdid hq
  injection hexpects with hinactive
  rcases suffix_of_mem he' with ⟨rest', hrest'⟩
  have hactive' : ((e'.post (semantics cfg)).rowState p).active = true := by
    rcases row_cases hm (hrest'.trans (suffix_tail he)) p with ⟨_, hnot⟩ | ⟨_, _, _, _, hrow⟩ | ⟨hdid, _⟩
    . exact absurd (.inl ⟨_, _, _, hdid'⟩) hnot
    . rw [hrow]
      rfl
    . cases hdid.unique hdid'
  rcases hm.split he with ⟨m₁, _, hm₁, hlog, hstore, _⟩
  subst hlog
  -- Only a revocation makes an active row inactive.
  have hkept := hm₁.persists (P := fun s => (s.rowState p).active = true)
    (B := fun r => (r.pre.rowState p).active = true
      ∧ ¬((r.post (semantics cfg)).rowState p).active = true)
    (fun r hnot hactive => not_not.mp fun hinactive => hnot ⟨hactive, hinactive⟩) (fun _ _ h => h)
    hrest' hactive' ?_
  . have := hkept.1
    rw [hstore, ← hinactive] at this
    contradiction
  . rintro r restr hr hbefore ⟨hactive, hinactive⟩
    rcases row_cases hm₁ hr p with ⟨hkept, _⟩ | ⟨_, _, _, _, hrow⟩ | ⟨hdid, _⟩
    . rw [hkept] at hinactive
      exact hinactive hactive
    . rw [hrow] at hinactive
      exact hinactive rfl
    . rw [hactive] at hdid
      exact hnone ⟨r, restr, hr, hbefore, hdid⟩

omit hm in
/--
Requests that have failed leave the row as it is, served in turn as well.
-/
theorem inTurn_failed (hp : p ≠ .aspectus) (d : Draw) {order : List Nat} {s₀ : Server}
    (hstarted : ∀ j ∈ order, (turnOf m d j).request.project = some p)
    (hfailed : ∀ j ∈ order, ∃ f ∈ m.log, f.thread = j ∧ ∃ a, f.what = .finish a ∧ 400 ≤ a.status)
    (hanswers : List.Forall₂ (fun j a => ∀ f ∈ m.log, f.thread = j → ∀ a', f.what = .finish a' →
      a.status = a'.status) order
      (inTurn (semantics cfg) (ProjectTokenRequest.handle cfg) (order.map (turnOf m d)) s₀).1)
    : (inTurn (semantics cfg) (ProjectTokenRequest.handle cfg) (order.map (turnOf m d)) s₀).2.rowState p
        = s₀.rowState p := by
  induction order generalizing s₀ with
  | nil => rfl
  | cons j order ih =>
    cases hanswers with
    | cons hanswer hanswers =>
      rcases hfailed j List.mem_cons_self with ⟨f, hf, hfj, a, ha, hstatus⟩
      have hsame := hanswer f hf hfj a ha
      rcases ServiceTokens.run_outcome cfg (turnOf m d j).draws s₀
        (hstarted j List.mem_cons_self) hp with ⟨hrun, hrow⟩
      have hkept := ServiceTokens.outcome_failed (hrun.symm.trans hsame ▸ hstatus)
      refine (ih (fun i hi => hstarted i (List.mem_cons_of_mem _ hi))
        (fun i hi => hfailed i (List.mem_cons_of_mem _ hi)) hanswers).trans ?_
      exact hrow.trans hkept

/--
A token that was returned with a success is the active one in the end, if all requests that are served
after it fail.
-/
theorem last_active {d : Draw} {order before after : List Nat} {i : Nat}
    (hlin : Linearizes (semantics cfg) (ProjectTokenRequest.handle cfg) s m
      (fun q => q.project = some p) (turnOf m d) (fun a a' => a.status = a'.status)
      (fun s => s.rowState p) order)
    (horder : order = before ++ i :: after) {f : TokenEntry} (hf : f ∈ m.log) (hthread : f.thread = i)
    {a : Response} (hw : f.what = .finish a) (hsuccess : a.status < 400)
    {created : ServiceTokenCreated} (hbody : a.body = .serviceTokenCreated created)
    (hfailed : ∀ j ∈ after, ∃ f ∈ m.log, f.thread = j ∧ ∃ a, f.what = .finish a ∧ 400 ≤ a.status)
    : m.store.rowState p = some (cfg.sha256Text created.token, true) := by
  subst hthread horder
  rcases hlin.started f.thread (by simp) with ⟨hq, hproject⟩
  rcases suffix_of_mem hf with ⟨rest, hrest⟩
  have hanswered := answered hm hrest hq hw
  have hp : p ≠ .aspectus := by
    rintro rfl
    rw [hanswered.rejected hproject] at hsuccess
    contradiction
  rcases (hanswered.concluded p hproject hp).2 created hbody with ⟨raw, old, htoken, hcalled⟩
  rcases hcalled.located with ⟨e, erest, he, hethread, hdid⟩
  have helog := he.trans (suffix_tail hrest)
  rcases before_upsert hm helog hdid with ⟨q, hq', token, raw', _, hexpects, hhash, _, hevents⟩
  cases hm.started_unique (hethread ▸ hq') hq
  -- The bytes that it is made of are those that are drawn second.
  rw [eventsOf_eq_map, hethread] at hevents
  rcases map_eq_pair hevents with ⟨x₁, x₀, hx, hx₁, _⟩
  have hsuffix := executedBy_suffix (i := f.thread) (suffix_tail helog)
  rw [hx] at hsuffix
  have h1 : drawn d f.thread m.log 1 = x₁.draw := drawn_of_suffix hsuffix rfl
  have hbytes := (executed_drew hm (hsuffix.mem (by simp)) hx₁).2
  rcases inTurn_served hlin.answers with ⟨s₀, hsame, hanswers, hresult⟩
  rcases ServiceTokens.run_outcome cfg (turnOf m d f.thread).draws s₀ hproject hp with
    ⟨hstatus, hrow⟩
  replace hsuccess := Nat.lt_of_le_of_lt (Nat.le_of_eq (hstatus.symm.trans (hsame f hf rfl a hw))) hsuccess
  have houtcome := ServiceTokens.outcome_succeeded (by rw [hexpects]; nofun) hsuccess
  have hkept := inTurn_failed hp d (fun j hj => (hlin.started j (by simp [hj])).2) hfailed hanswers
  rw [← hlin.result, hresult, hkept, htoken]
  refine (hrow.trans houtcome).trans ?_
  change some ((ServiceTokenCreator.created cfg p (drawn d f.thread m.log 1).bytes.toList).tokenHash, true)
    = some ((ServiceTokenCreator.created cfg p raw).tokenHash, true)
  rw [h1, ← hbytes, ← hhash]

end TokenMachine

/--
The management of service tokens is linearizable, as long as whatever stores a token finds the project
with or without an active one as it was when its request has read the row: there is an order of the
requests, consistent with the one in which they were started and answered, in which each of them gives
the same status and which ends in the same row. The token of a success that only failures come after is
the active one in the end. Tokens are only created where none is active, only rotated where one is, and
revoked between any two that were created.
-/
theorem token_management_linearizable (cfg : Config) (s : Server) (p : Project) (m : TokenMachine)
    (hm : TokenMachine.Reachable cfg s m) (hsteady : Steady p m.log) (d : Draw) :
    (∃ order, Linearizes (semantics cfg) (ProjectTokenRequest.handle cfg) s m
        (fun q => q.project = some p) (m.turnOf d) (fun a a' => a.status = a'.status)
        (fun s => s.rowState p) order
      ∧ ∀ before i after, order = before ++ i :: after →
        ∀ f ∈ m.log, f.thread = i → ∀ a, f.what = .finish a → a.status < 400 →
        ∀ created, a.body = .serviceTokenCreated created →
        (∀ j ∈ after, ∃ f ∈ m.log, f.thread = j ∧ ∃ a, f.what = .finish a ∧ 400 ≤ a.status) →
        m.store.rowState p = some (cfg.sha256Text created.token, true))
      ∧ ∀ e rest, e :: rest <:+ m.log → ∀ tokenHash tokenPrefix old,
        Did e (.serviceToken (.upsert p tokenHash tokenPrefix)) (.ok old) →
        (∀ name, Started m.log e.thread (.rotate name) → (e.pre.rowState p).active = true)
        ∧ ∀ name, Started m.log e.thread (.create name) →
          (e.pre.rowState p).active = false
          ∧ ∀ e' ∈ rest, ∀ tokenHash' tokenPrefix' old',
            Did e' (.serviceToken (.upsert p tokenHash' tokenPrefix')) (.ok old') →
            ∃ r restr, r :: restr <:+ rest ∧ e' ∈ restr ∧ Did r (.serviceToken (.revoke p)) (.ok true) := by
  constructor
  . have hlin := TokenMachine.linearizes hm hsteady d
    refine ⟨_, hlin, ?_⟩
    intro before i after horder f hf hthread a hw hsuccess created hbody hfailed
    exact TokenMachine.last_active hm hlin horder hf hthread hw hsuccess hbody hfailed
  . intro e rest he tokenHash tokenPrefix old hdid
    constructor
    . intro name hq
      have hexpects := TokenMachine.upsert_expects hm hsteady he hdid hq
      injection hexpects with hactive
      exact hactive.symm
    . intro name hq
      have hexpects := TokenMachine.upsert_expects hm hsteady he hdid hq
      injection hexpects with hinactive
      refine ⟨hinactive.symm, ?_⟩
      intro e' he' tokenHash' tokenPrefix' old' hdid'
      exact TokenMachine.revoked_between hm hsteady he he' hdid hdid' hq

namespace Sample

/--
A token is created, and rotated after that. A request to revoke it overlaps with both and comes last.
-/
def rotatedOnce : TokenMachine :=
  let created := serve ProjectTokenRequest.handle (init server) 0 (.create "pandaria") 1 8
  let revoking := serve ProjectTokenRequest.handle created 2 (.revoke "pandaria") 3 1
  let rotated := serve ProjectTokenRequest.handle revoking 1 (.rotate "pandaria") 2 9
  resume ProjectTokenRequest.handle rotated 2 3 8

def storesToken (e : TokenEntry) : Bool :=
  match e.what with
  | .call ⟨.serviceToken (.upsert ..), _⟩ _ => true
  | _ => false

def readsToken (e : TokenEntry) : Bool :=
  match e.what with
  | .call ⟨.serviceToken (.getByProject _), _⟩ _ => true
  | _ => false

/--
Whether the row is with or without an active token when `e` stores one, as it was for `r`.
-/
def sameActivity (e r : TokenEntry) : Bool :=
  !storesToken e || !readsToken r || r.thread != e.thread
    || (r.pre.rowState .pandaria).active == (e.pre.rowState .pandaria).active

theorem steady_of_sameActivity {log : List TokenEntry}
    (h : log.all (fun e => log.all (sameActivity e)) = true) : Steady .pandaria log := by
  rintro e rest he tokenHash tokenPrefix old ⟨d, hw⟩ r hr hthread ⟨_, d', hw'⟩
  have := List.all_eq_true.mp (List.all_eq_true.mp h e (he.mem List.mem_cons_self)) r
    ((suffix_tail he).mem hr)
  simpa [sameActivity, storesToken, readsToken, hw, hw', hthread] using this

end Sample

open Sample in
theorem token_management_linearizable_rotated :
    ∃ order, Linearizes (semantics config) (ProjectTokenRequest.handle config) server rotatedOnce
      (fun q => q.project = some .pandaria) (rotatedOnce.turnOf (draw 0))
      (fun a a' => a.status = a'.status) (fun s => s.rowState .pandaria) order := by
  have hreachable : TokenMachine.Reachable config server rotatedOnce :=
    reachable_resume (reachable_serve (reachable_serve (reachable_serve reachable_init)))
  have hsteady : Steady .pandaria rotatedOnce.log := steady_of_sameActivity (by decide +kernel)
  rcases (token_management_linearizable config server .pandaria rotatedOnce hreachable hsteady (draw 0)).1
    with ⟨order, hlin, _⟩
  exact ⟨order, hlin⟩

namespace Sample

/--
Two requests for a token of the same project are both about to store it.
-/
def creatingTwice : TokenMachine :=
  let creating := serve ProjectTokenRequest.handle (init server) 0 (.create "pandaria") 1 2
  serve ProjectTokenRequest.handle creating 1 (.create "pandaria") 2 2

/--
Both of them store it, and both succeed.
-/
def createdTwice : TokenMachine :=
  resume ProjectTokenRequest.handle (resume ProjectTokenRequest.handle creatingTwice 0 1 6) 1 2 6

def starts (i : Nat) (e : TokenEntry) : Bool :=
  e.thread = i && match e.what with
    | .start (.create name) => name = "pandaria"
    | _ => false

theorem of_starts {i : Nat} {log : List TokenEntry} (h : log.any (starts i) = true) :
    Started log i (.create "pandaria") := by
  rcases List.any_eq_true.mp h with ⟨e, he, h⟩
  unfold starts at h
  simp only [Bool.and_eq_true, decide_eq_true_eq] at h
  rcases h with ⟨hi, h⟩
  split at h
  . next name hw =>
    rw [decide_eq_true_eq] at h
    exact ⟨e, he, hi, h ▸ hw⟩
  . contradiction

theorem createdTwice_reachable : TokenMachine.Reachable config server createdTwice :=
  reachable_resume (reachable_resume (reachable_serve (reachable_serve reachable_init)))

/--
Of two requests for a token that are served in turn only the first can succeed.
-/
theorem created_once (draws draws' : Nat → Draw) (s : Server)
    (h : ((ProjectTokenRequest.handle config (.create "pandaria")).run (semantics config) draws s).1.status
      = 201)
    : ((ProjectTokenRequest.handle config (.create "pandaria")).run (semantics config) draws'
        ((ProjectTokenRequest.handle config (.create "pandaria")).run (semantics config) draws s).2.2).1.status
          ≠ 201 := by
  have hproject : (ProjectTokenRequest.create "pandaria").project = some .pandaria := by
    decide
  rcases ServiceTokens.run_outcome config draws s hproject nofun with ⟨hstatus, hrow⟩
  rw [hstatus] at h
  have hexpects : (ProjectTokenRequest.create "pandaria").expects ≠ none := nofun
  have hactive := ServiceTokens.outcome_succeeded hexpects
    (Nat.lt_of_le_of_lt (Nat.le_of_eq h) (by decide))
  generalize ((ProjectTokenRequest.handle config (.create "pandaria")).run (semantics config) draws s).2.2 = s'
    at hrow ⊢
  rw [(ServiceTokens.run_outcome config draws' s' hproject nofun).1, hrow, hactive]
  cases hfault : (draws' 0).fault.isSome with
  | true =>
    rw [ServiceTokens.outcome_unread hproject hfault]
    exact Nat.ne_of_beq_eq_false rfl
  | false =>
    rw [ServiceTokens.outcome_taken hfault rfl rfl]
    exact Nat.ne_of_beq_eq_false rfl

end Sample

open Sample in
/--
Two requests that create a token at the same time both succeed.
-/
theorem token_management_overlapping :
    ¬∀ m, TokenMachine.Reachable config server m → ∃ (draws : Nat → Nat → Draw) (order : List Nat),
      Linearizes (semantics config) (ProjectTokenRequest.handle config) server m
        (fun q => q.project = some .pandaria) (fun i => { m.turnOf (draw 0) i with draws := draws i })
        (fun a a' => a.status = a'.status) (fun s => s.rowState .pandaria) order := by
  intro hclaim
  have hm := createdTwice_reachable
  rcases hclaim createdTwice hm with ⟨draws, order, hlin⟩
  have hchecks : (createdTwice.log.any (starts 0) = true ∧ createdTwice.log.any (starts 1) = true)
      ∧ (createdTwice.log.any (answers 0 201) = true ∧ createdTwice.log.any (answers 1 201) = true)
      ∧ createdTwice.log.all (fun e => e.thread == 0 || e.thread == 1) = true := by
    decide +kernel
  rcases hchecks with ⟨⟨hstarted0, hstarted1⟩, ⟨hanswered0, hanswered1⟩, hthreads⟩
  have hstarted0 := of_starts hstarted0
  have hstarted1 := of_starts hstarted1
  have hanswered : ∀ i, i = 0 ∨ i = 1 →
      ∃ f ∈ createdTwice.log, f.thread = i ∧ ∃ a, f.what = .finish a ∧ a.status = 201 := by
    rintro i (rfl | rfl)
    . rcases List.any_eq_true.mp hanswered0 with ⟨f, hf, hfinish⟩
      exact ⟨f, hf, of_answers hfinish⟩
    . rcases List.any_eq_true.mp hanswered1 with ⟨f, hf, hfinish⟩
      exact ⟨f, hf, of_answers hfinish⟩
  have hrequest : ∀ i, i = 0 ∨ i = 1 → (createdTwice.turnOf (draw 0) i).request = .create "pandaria" := by
    rintro i (rfl | rfl)
    . exact hm.turn_request hstarted0
    . exact hm.turn_request hstarted1
  have hall : ∀ i ∈ order, i = 0 ∨ i = 1 := by
    intro i hi
    rcases (hlin.started i hi).1 with ⟨e, he, rfl, _⟩
    simpa using List.all_eq_true.mp hthreads e he
  have hmem : ∀ i, i = 0 ∨ i = 1 → i ∈ order := by
    intro i hi
    rcases hanswered i hi with ⟨f, hf, hthread, a, hw, _⟩
    refine hlin.complete i (.create "pandaria") ?_ (by decide) ⟨f, hf, hthread, a, hw⟩
    rcases hi with rfl | rfl
    . exact hstarted0
    . exact hstarted1
  rcases order_pair hlin.nodup (hmem 0 (.inl rfl)) (hmem 1 (.inr rfl)) hall with ⟨i, j, rfl⟩
  -- Whichever of the two is served second, it does not succeed.
  have hi := hall i (by simp)
  have hj := hall j (by simp)
  rcases hanswered i hi with ⟨f, hf, hfi, a, hfw, hstatus⟩
  rcases hanswered j hj with ⟨g, hg, hgj, b, hgw, hstatus'⟩
  have hanswers := hlin.answers
  simp only [List.map_cons, List.map_nil, inTurn, hrequest i hi, hrequest j hj] at hanswers
  cases hanswers with
  | cons hfirst hrest =>
    cases hrest with
    | cons hsecond _ =>
      exact created_once _ _ _ ((hfirst f hf hfi a hfw).trans hstatus)
        ((hsecond g hg hgj b hgw).trans hstatus')

end Aspectus
