import Aspectus.Discipline.Quotas
import Aspectus.Security.Sample

/-!
This module contains that the quotas of a tenant survive: what is put is what every introspection reports,
until the next successful request puts something else.
-/

namespace Aspectus

open Interaction Prog Machine Statement

section Stores

variable {cfg : Config} {s s' : Server} {d : Draw} {w : Meanwhile} {id : String} {quotas : Json}

theorem updateQuotas_ok {n : Nat} (h : Statement.updateQuotas id quotas s = .ok (n, s'))
    : n = (if (s.tenants.lookup id).isSome then 1 else 0)
        ∧ s' = { s with tenants := s.tenants.updateAt id fun tenant => { tenant with quotas := quotas } } := by
  unfold Statement.updateQuotas at h
  simp only [bind_eq_ok, require_ok] at h
  rcases h with ⟨_, _, h⟩
  cases h
  exact ⟨rfl, rfl⟩

theorem insertTenant_ok {name : String} {tenant : Tenant}
    (h : Statement.insertTenant id name s = .ok (tenant, s'))
    : ∃ tenants, s.tenants.insertNew id tenant = some tenants ∧ s' = { s with tenants := tenants }
        ∧ tenant.quotas = .obj [] := by
  unfold Statement.insertTenant at h
  simp only [bind_eq_ok, insert_ok] at h
  rcases h with ⟨_, _, tenants, hinsert, h⟩
  cases h
  exact ⟨tenants, hinsert, rfl, rfl⟩

/--
The tenant exists and has these quotas.
-/
def HasQuotas (id : String) (quotas : Json) (s : Server) : Prop :=
  ∃ tenant, s.tenants.lookup id = some tenant ∧ tenant.quotas = quotas

theorem KeepsQuotas.hasQuotas (h : KeepsQuotas s s') (hs : HasQuotas id quotas s) :
    HasQuotas id quotas s' := by
  rcases hs with ⟨tenant, htenant, rfl⟩
  exact h id tenant htenant

theorem KeepsQuotas.of_hasQuotas (h : ∀ id quotas, HasQuotas id quotas s → HasQuotas id quotas s') :
    KeepsQuotas s s' := by
  intro id tenant htenant
  exact h id _ ⟨tenant, htenant, rfl⟩

theorem TenantWrite.exec_redis (o : TenantWrite) : (o.exec d s).2.redis = s.redis := by
  cases o with
  | insert id name =>
    apply run_store (P := fun s' => s'.redis = s.redis) rfl
    intro tenant s' h
    rcases insertTenant_ok h with ⟨_, _, rfl, _⟩
    rfl
  | updateQuotas id quotas =>
    apply run_store (P := fun s' => s'.redis = s.redis) rfl
    intro n s' h
    rcases updateQuotas_ok h with ⟨_, rfl⟩
    rfl

theorem QuotaFree.exec {q : QuotaRequest} {o : (Api.sum TenantApi).Op} (hs : QuotaFree s)
    (ho : QuotaAllowed q o) : QuotaFree ((quotaSemantics cfg).exec o (d, w) s).2 := by
  have hw := w.cached s hs
  cases o with
  | left o =>
    intro key entry r hentry hvalue
    rcases Op.exec_redis cfg d (w.write s) o key entry hentry with
      hold | ⟨value, ttl, rfl, _, rfl⟩ | ⟨value, ttl, _, _, rfl⟩ | ⟨name, bucket, n, _, hcount⟩
    . exact hw key entry r hold hvalue
    . cases hvalue
      exact ho
    . cases hvalue
    . rw [hcount] at hvalue
      cases hvalue
  | right o =>
    intro key entry r hentry hvalue
    have hredis : (TenantWrite.exec d (w.write s) o).2.redis = (w.write s).redis := o.exec_redis
    exact hw key entry r (by rwa [← hredis]) hvalue

/--
The quotas of a tenant are kept by everything but a successful update of them.
-/
theorem hasQuotas_post {e : QuotaEntry} (hsound : Entry.Sound (quotaSemantics cfg) e)
    (hnot : ∀ quotas', ¬Updated e id quotas') (h : HasQuotas id quotas e.pre)
    : HasQuotas id quotas (e.post (quotaSemantics cfg)) := by
  rcases e with ⟨i, pre, _ | ⟨⟨o | o, r⟩, d, w⟩ | _⟩
  . exact h
  . rcases (w.tenants pre).hasQuotas h with ⟨tenant, htenant, hquotas⟩
    refine ⟨tenant, ?_, hquotas⟩
    change ((o.exec cfg d (w.write pre)).2).tenants.lookup id = some tenant
    rw [(Op.exec_framed cfg d (w.write pre) o).tenants]
    exact htenant
  . have hw := (w.tenants pre).hasQuotas h
    cases o with
    | insert id' name =>
      change HasQuotas id quotas (TenantWrite.exec d (w.write pre) (.insert id' name)).2
      apply run_store (P := HasQuotas id quotas) hw
      intro tenant s' hok
      rcases insertTenant_ok hok with ⟨tenants, hinsert, rfl, _⟩
      rcases hw with ⟨tenant', htenant', hquotas⟩
      exact ⟨tenant', Table.lookup_insertNew_of_some hinsert htenant', hquotas⟩
    | updateQuotas id' quotas' =>
      change HasQuotas id quotas (TenantWrite.exec d (w.write pre) (.updateQuotas id' quotas')).2
      have hr : r = (TenantWrite.exec d (w.write pre) (.updateQuotas id' quotas')).1 := hsound _ _ rfl
      unfold TenantWrite.exec at hr ⊢
      dsimp only at hr ⊢
      rcases run_cases d [id'] (Statement.updateQuotas id' quotas') (w.write pre) with
        ⟨e, hrun⟩ | ⟨n, s', _, _, hok, hrun⟩
      . rw [hrun]
        exact hw
      . rw [hrun] at hr ⊢
        rcases updateQuotas_ok hok with ⟨hn, rfl⟩
        rcases hw with ⟨tenant, htenant, hquotas⟩
        have hid : id ≠ id' := by
          rintro rfl
          rw [htenant] at hn
          exact hnot quotas' ⟨0, (d, w), by rw [hr, hn]; rfl⟩
        refine ⟨tenant, ?_, hquotas⟩
        rw [Table.lookup_updateAt, if_neg hid]
        exact htenant
  . exact h

/--
A successful update stores the quotas.
-/
theorem Updated.hasQuotas {e : QuotaEntry} (hupdated : Updated e id quotas)
    (hsound : Entry.Sound (quotaSemantics cfg) e)
    : HasQuotas id quotas (e.post (quotaSemantics cfg)) := by
  rcases hupdated with ⟨n, ⟨d, w⟩, hw⟩
  have hr : (.ok (n + 1) : Result Nat)
      = (TenantWrite.exec d (w.write e.pre) (.updateQuotas id quotas)).1 := hsound _ _ hw
  have hok := run_ok hr.symm
  rcases updateQuotas_ok hok with ⟨hn, hs'⟩
  have hpost : e.post (quotaSemantics cfg)
      = (TenantWrite.exec d (w.write e.pre) (.updateQuotas id quotas)).2 := by
    unfold Entry.post
    rw [hw]
    rfl
  cases htenant : (w.write e.pre).tenants.lookup id with
  | none => simp [htenant] at hn
  | some tenant =>
    rw [hpost]
    refine ⟨{ tenant with quotas := quotas }, ?_, rfl⟩
    unfold TenantWrite.exec
    dsimp only
    rw [hs', Table.lookup_updateAt, if_pos rfl, htenant]
    rfl

end Stores

/--
No tenant is ever deleted.
-/
theorem tenants_evolution (cfg : Config) :
    Machine.Evolution (quotaSemantics cfg)
      fun s s' => Table.Grows (fun _ _ => True) s.tenants s'.tenants where
  refl _ := Table.Grows.refl (fun _ => trivial) _
  trans := Table.Grows.trans fun _ _ => trivial
  advance _ _ := Table.Grows.refl (fun _ => trivial) _
  exec o d s := by
    rcases d with ⟨d, w⟩
    have hw : Table.Grows (fun _ _ => True) s.tenants (w.write s).tenants := by
      intro id tenant htenant
      rcases w.tenants s id tenant htenant with ⟨tenant', htenant', _⟩
      exact ⟨tenant', htenant', trivial⟩
    refine Table.Grows.trans (fun _ _ => trivial) hw ?_
    have hrefl := Table.Grows.refl (R := fun _ _ : Tenant => True) (fun _ => trivial) (w.write s).tenants
    cases o with
    | left o =>
      change Table.Grows _ _ (o.exec cfg d (w.write s)).2.tenants
      rw [(Op.exec_framed cfg d (w.write s) o).tenants]
      exact hrefl
    | right o =>
      change Table.Grows _ _ (TenantWrite.exec d (w.write s) o).2.tenants
      cases o with
      | insert id name =>
        apply run_store (P := fun s' => Table.Grows _ (w.write s).tenants s'.tenants) hrefl
        intro tenant s' hok
        rcases insertTenant_ok hok with ⟨tenants, hinsert, rfl, _⟩
        exact Table.Grows.insertNew (fun _ => trivial) hinsert
      | updateQuotas id quotas =>
        apply run_store (P := fun s' => Table.Grows _ (w.write s).tenants s'.tenants) hrefl
        intro n s' hok
        rcases updateQuotas_ok hok with ⟨_, rfl⟩
        exact Table.Grows.updateAt (fun _ => trivial) fun _ _ => trivial

section Runs

variable {cfg : Config} {s : Server} {m : QuotaMachine} (h : QuotaMachine.Reachable cfg s m)
include h

theorem quotaFree (hs : QuotaFree s) {e : QuotaEntry} (he : e ∈ m.log) : QuotaFree e.pre := by
  refine h.pre_inv (P := QuotaFree) (fun _ _ hfree => hfree) hs ?_ he
  intro m e rest h he hpre
  rcases e.post_cases (quotaSemantics cfg) with hpost | ⟨ev, ⟨d, w⟩, hw, hpost⟩
  . rw [hpost]
    exact hpre
  . rw [hpost]
    rcases h.called QuotaRequest.handle_allowed he hw with ⟨q, _, hallowed⟩
    exact hpre.exec hallowed

/--
Only a request that puts quotas updates any, and these satisfy the schema.
-/
theorem updated_allowed {u : QuotaEntry} {older : List QuotaEntry} (hu : u :: older <:+ m.log) {id : String}
    {quotas : Json} (hupdated : Updated u id quotas)
    : Started older u.thread (.put id quotas) ∧ QuotaSchema quotas := by
  rcases hupdated with ⟨n, d, hw⟩
  rcases h.called QuotaRequest.handle_allowed hu hw with ⟨q, hstarted, rfl, hschema⟩
  exact ⟨hstarted, hschema⟩

/--
An attempt to update the quotas of a tenant who exists finds the tenant.
-/
theorem attempt_finds {e₀ : QuotaEntry} {rest₀ : List QuotaEntry} (he₀ : e₀ :: rest₀ <:+ m.log)
    {id : String} {quotas : Json} (hstart : e₀.what = .start (.put id quotas))
    (hexists : (e₀.pre.tenants.lookup id).isSome) {g : QuotaEntry} {rest : List QuotaEntry}
    (hg : g :: rest <:+ m.log) (hthread : g.thread = e₀.thread) {r : Result Nat}
    {d : Draw × Meanwhile} (hw : g.what = .call ⟨.right (.updateQuotas id quotas), r⟩ d)
    : r ≠ .ok 0 := by
  rintro rfl
  have hold : e₀ ∈ rest := by
    rcases h.after_start he₀ hstart hg hthread with ⟨rfl, _⟩ | hold
    . rw [hstart] at hw
      contradiction
    . exact hold.mem List.mem_cons_self
  have hgrows := (tenants_evolution cfg).between h hg hold
  have hpost : e₀.post (quotaSemantics cfg) = e₀.pre := by
    unfold Entry.post
    rw [hstart]
  rw [hpost] at hgrows
  rcases Option.isSome_iff_exists.mp hexists with ⟨tenant, htenant⟩
  rcases hgrows id tenant htenant with ⟨tenant', htenant', _⟩
  rcases d.2.tenants g.pre id tenant' htenant' with ⟨tenant'', htenant'', _⟩
  have hr : (.ok 0 : Result Nat)
      = (TenantWrite.exec d.1 (d.2.write g.pre) (.updateQuotas id quotas)).1 :=
    h.sound g (hg.mem List.mem_cons_self) _ _ hw
  have hn := (updateQuotas_ok (run_ok hr.symm)).1
  rw [htenant''] at hn
  contradiction

/--
The answer to a request that puts quotas, if no statement fails and the tenant exists when it starts.
-/
theorem put_finished (hfail : NoFailure m.log) {e₀ : QuotaEntry} {rest₀ : List QuotaEntry}
    (he₀ : e₀ :: rest₀ <:+ m.log) {id : String} {quotas : Json} (hstart : e₀.what = .start (.put id quotas))
    (hexists : (e₀.pre.tenants.lookup id).isSome) {e : QuotaEntry} {rest : List QuotaEntry}
    (he : e :: rest <:+ m.log) (hthread : e.thread = e₀.thread) {a : Response} (hw : e.what = .finish a)
    : (a.status = 204 ↔ QuotaSchema quotas)
        ∧ (a.status = 204 → ∃ u ∈ rest, u.thread = e.thread ∧ Updated u id quotas) := by
  rcases h.finished QuotaRequest.handle_answered he hw with ⟨q, hstarted, hpost⟩
  have hq : q = .put id quotas := by
    refine h.started_unique (hstarted.of_suffix (suffix_tail he)) ?_
    exact ⟨e₀, he₀.mem List.mem_cons_self, hthread.symm, hstart⟩
  subst hq
  have hupdated : a.status = 204 → ∃ u ∈ rest, u.thread = e.thread ∧ Updated u id quotas := by
    intro hok
    rcases hpost.stored hok with ⟨n, hmem⟩
    rcases mem_eventsOf.mp hmem with ⟨u, hu, hthread', d, hw'⟩
    exact ⟨u, hu, hthread', n, d, hw'⟩
  refine ⟨⟨?_, ?_⟩, hupdated⟩
  . intro hok
    rcases hupdated hok with ⟨u, hu, _, hu'⟩
    rcases suffix_of_mem ((suffix_tail he).mem hu) with ⟨older, hsuffix⟩
    exact (updated_allowed h hsuffix hu').2
  . intro hschema
    by_contra hrefused
    rcases hpost.attempted hschema with ⟨r, hmem⟩
    rcases mem_eventsOf.mp hmem with ⟨g, hg, hthread', d, hw'⟩
    have hglog := (suffix_tail he).mem hg
    rcases suffix_of_mem hglog with ⟨older, hsuffix⟩
    rcases r with error | _ | n
    . have hok := (hfail g hglog d).2 _ _ hw'
      contradiction
    . exact attempt_finds h he₀ hstart hexists hsuffix (hthread'.trans hthread) hw' rfl
    . exact hpost.refused hrefused n hmem

/--
A request that puts quotas and is refused keeps the quotas of all tenants.
-/
theorem put_refused {e₀ : QuotaEntry} (he₀ : e₀ ∈ m.log) {id : String} {quotas : Json}
    (hstart : e₀.what = .start (.put id quotas)) {e : QuotaEntry} {rest : List QuotaEntry}
    (he : e :: rest <:+ m.log) (hthread : e.thread = e₀.thread) {a : Response} (hw : e.what = .finish a)
    (hrefused : a.status ≠ 204) {g : QuotaEntry} (hg : g ∈ m.log) (hgthread : g.thread = e.thread)
    : KeepsQuotas g.pre (g.post (quotaSemantics cfg)) := by
  apply KeepsQuotas.of_hasQuotas
  intro id' quotas' hhas
  refine hasQuotas_post (h.sound g hg) ?_ hhas
  intro quotas'' hupdated
  rcases h.finished QuotaRequest.handle_answered he hw with ⟨q, hstarted, hpost⟩
  have hq : q = .put id quotas := by
    refine h.started_unique (hstarted.of_suffix (suffix_tail he)) ?_
    exact ⟨e₀, he₀, hthread.symm, hstart⟩
  subst hq
  rcases suffix_of_mem hg with ⟨older, hsuffix⟩
  have hown := (updated_allowed h hsuffix hupdated).1.of_suffix (suffix_tail hsuffix)
  have hsame : QuotaRequest.put id' quotas'' = .put id quotas := by
    refine h.started_unique hown ?_
    exact ⟨e₀, he₀, by rw [hgthread, hthread], hstart⟩
  injection hsame with hid hquotas
  subst hid hquotas
  -- The update was made before the answer, so the answer knows about it.
  rcases hupdated with ⟨n, d, hw'⟩
  rcases suffix_trichotomy he hsuffix with ⟨rfl, _⟩ | hold | hnew
  . rw [hw] at hw'
    contradiction
  . apply hpost.refused hrefused n
    exact mem_eventsOf.mpr ⟨g, hold.mem List.mem_cons_self, hgthread, d, hw'⟩
  . exact h.finish_last hsuffix (hnew.mem List.mem_cons_self) hw hgthread

/--
The response tells of these quotas, and it tells of none if they are empty.
-/
def Tells (quotas : Json) (r : IntrospectResponse) : Prop :=
  ∃ fields, quotas = .obj fields ∧ r.quotas = if fields.isEmpty then none else some fields

/--
What an introspection that starts after an update tells, if there was no other update until its answer.
-/
theorem introspection_tells (hs : QuotaFree s) (hfail : NoFailure m.log) {u : QuotaEntry}
    {older : List QuotaEntry} (hu : u :: older <:+ m.log) {id : String} {quotas : Json}
    (hupdated : Updated u id quotas) {e₀ : QuotaEntry} {rest₀ : List QuotaEntry}
    (he₀ : e₀ :: rest₀ <:+ m.log) {token : String} (hstart : e₀.what = .start (.key (.introspect token)))
    (hafter : u :: older <:+ rest₀) {e : QuotaEntry} {rest : List QuotaEntry} (he : e :: rest <:+ m.log)
    (hthread : e.thread = e₀.thread) {r : IntrospectResponse} {a : Response} (hw : e.what = .finish a)
    (hbody : a.body = .introspection r) (hactive : r.active = true) (htenant : r.tenantId = some id)
    (hlast : ∀ g older', g :: older' <:+ rest → u ∈ older' → ∀ quotas', ¬Updated g id quotas')
    : Tells quotas r := by
  rcases h.finished QuotaRequest.handle_answered he hw with ⟨q, hstarted, hpost⟩
  have hq : q = .key (.introspect token) := by
    refine h.started_unique (hstarted.of_suffix (suffix_tail he)) ?_
    exact ⟨e₀, he₀.mem List.mem_cons_self, hthread.symm, hstart⟩
  subst hq
  rcases hpost r hbody hactive id htenant with ⟨old, hinherited, res, hread, hquotas⟩
  -- Nothing is inherited from the cache.
  have hold : old = none := by
    rcases hinherited with hnone | ⟨key, cached, hcached, rfl⟩
    . exact hnone
    . rcases mem_eventsOf.mp (mem_leftEvents.mp hcached) with ⟨g, hg, _, ⟨d, w⟩, hw'⟩
      have hglog := (suffix_tail he).mem hg
      have hr : some cached = (CacheOp.exec d (w.write g.pre) (.getJson key)).1 :=
        h.sound g hglog _ _ hw'
      unfold CacheOp.exec at hr
      dsimp only at hr
      split at hr
      . next hsome =>
        injection hr with hr
        subst hr
        rcases Server.cached_eq_some.mp hsome with ⟨entry, hentry, _, hvalue⟩
        exact w.cached _ (quotaFree h hs hglog) key entry _ hentry hvalue
      . contradiction
  subst hold
  rcases mem_eventsOf.mp (mem_leftEvents.mp hread) with ⟨g, hg, hgthread, ⟨d, w⟩, hw'⟩
  have hglog := (suffix_tail he).mem hg
  have hsound : Entry.Sound (quotaSemantics cfg) g := h.sound g hglog
  rcases suffix_of_mem hg with ⟨grest, hgsuffix⟩
  have hgafter : u :: older <:+ grest := by
    rcases h.after_start he₀ hstart (hgsuffix.trans (suffix_tail he)) (hgthread.trans hthread) with
      ⟨rfl, _⟩ | hstarted
    . rw [hstart] at hw'
      contradiction
    . exact hafter.trans (suffix_tail hstarted)
  -- The quotas of the update are still there when the tenant is read.
  have hhas : HasQuotas id quotas g.pre := by
    rcases h.split he with ⟨m₁, _, h₁, hlog₁, _⟩
    have hsince : u :: older <:+ m₁.log := hlog₁ ▸ hgafter.trans (suffix_tail hgsuffix)
    have hpersists := h₁.persists (P := HasQuotas id quotas)
      (B := fun g => ¬(Entry.Sound (quotaSemantics cfg) g ∧ ∀ quotas', ¬Updated g id quotas'))
      (fun g hgood hpre => hasQuotas_post (not_not.mp hgood).1 (not_not.mp hgood).2 hpre)
      (fun _ _ hhas => hhas) hsince
      (hupdated.hasQuotas (h.sound u (hu.mem List.mem_cons_self)))
    rw [hlog₁] at hpersists
    refine (hpersists ?_).2 g grest hgsuffix hgafter
    intro g' older' hg' hmem hbad
    exact hbad ⟨h.sound g' ((suffix_tail he).mem (hg'.mem List.mem_cons_self)), hlast g' older' hg' hmem⟩
  rcases (w.tenants g.pre).hasQuotas hhas with ⟨tenant, hlookup, rfl⟩
  have hres : res = .ok (some tenant) := by
    have hok := (hfail g hglog (d, w)).1 _ _ hw'
    cases res with
    | error e => contradiction
    | ok found =>
      have hr : (.ok found : Result (Option Tenant)) = (TenantOp.exec d (w.write g.pre) (.getById id)).1 :=
        hsound _ _ hw'
      have hfound := query_ok hr.symm
      injection hfound with hfound
      rw [← hfound, hlookup]
  subst hres
  rcases (updated_allowed h hu hupdated).2 with ⟨fields, hfields, _⟩
  refine ⟨fields, hfields, ?_⟩
  rw [hquotas]
  dsimp only
  unfold introspect.quotasOf
  rw [hfields]
  cases fields with
  | nil => rfl
  | cons field fields => rfl

end Runs

/--
Quotas survive the round trip, if no statement fails. A request that puts quotas of a tenant who exists is
successful if and only if they satisfy the schema, and it changes no quotas if it is refused. From the update
on, until the next one for the same tenant, every introspection reports precisely these quotas, and none if
they are empty.
-/
theorem tenant_quotas {cfg : Config} {s : Server} {m : QuotaMachine} (hs : QuotaFree s)
    (h : QuotaMachine.Reachable cfg s m) (hfail : NoFailure m.log)
    : (∀ e₀ rest₀ id quotas, e₀ :: rest₀ <:+ m.log → e₀.what = .start (.put id quotas) →
          (e₀.pre.tenants.lookup id).isSome →
        ∀ e rest a, e :: rest <:+ m.log → e.thread = e₀.thread → e.what = .finish a →
          (a.status = 204 ↔ QuotaSchema quotas)
            ∧ (a.status = 204 → ∃ u ∈ rest, u.thread = e.thread ∧ Updated u id quotas)
            ∧ (a.status ≠ 204 → ∀ g ∈ m.log, g.thread = e.thread →
                KeepsQuotas g.pre (g.post (quotaSemantics cfg))))
        ∧ ∀ u older id quotas, u :: older <:+ m.log → Updated u id quotas →
          ∀ e₀ rest₀ token, e₀ :: rest₀ <:+ m.log → e₀.what = .start (.key (.introspect token)) →
            u :: older <:+ rest₀ →
          ∀ e rest a r, e :: rest <:+ m.log → e.thread = e₀.thread → e.what = .finish a →
            a.body = .introspection r → r.active = true → r.tenantId = some id →
            (∀ g older', g :: older' <:+ rest → u ∈ older' → ∀ quotas', ¬Updated g id quotas') →
            Tells quotas r := by
  constructor
  . intro e₀ rest₀ id quotas he₀ hstart hexists e rest a he hthread hw
    rcases put_finished h hfail he₀ hstart hexists he hthread hw with ⟨hschema, hupdated⟩
    refine ⟨hschema, hupdated, ?_⟩
    intro hrefused g hg hgthread
    exact put_refused h (he₀.mem List.mem_cons_self) hstart he hthread hw hrefused hg hgthread
  . intro u older id quotas hu hupdated e₀ rest₀ token he₀ hstart hafter e rest a r he hthread hw hbody
      hactive htenant hlast
    exact introspection_tells h hs hfail hu hupdated he₀ hstart hafter he hthread hw hbody hactive htenant
      hlast

namespace Sample

def idle : Meanwhile where
  write s := s
  tenants _ := Table.Grows.refl (R := fun t t' : Tenant => t'.quotas = t.quotas) (fun _ => rfl) _
  cached _ h := h

def quotas : Json :=
  .obj [("pandaria", .obj [("monthly_tokens", .num 5)])]

def quotaSteps (m : QuotaMachine) (i : Nat) (q : QuotaRequest) (k : Nat) : QuotaMachine :=
  runs (quotaSemantics config) (QuotaRequest.handle config) m
    (.start i q :: List.replicate k (.step i (draw 1, idle)))

def quotasPut : QuotaMachine :=
  quotaSteps (init keyServer) 0 (.put "default" quotas) 5

/--
The quotas are put, and after that a key of the tenant is introspected.
-/
def quotasRead : QuotaMachine :=
  quotaSteps quotasPut 1 (.key (.introspect keyToken)) 5

def updates (e : QuotaEntry) : Bool :=
  match e.what with
  | .call ⟨.right (.updateQuotas _ _), .ok (_ + 1)⟩ _ => true
  | _ => false

def putsQuotas (e : QuotaEntry) : Bool :=
  match e.what with
  | .call ⟨.right (.updateQuotas id (.obj [("pandaria", .obj [("monthly_tokens", .num 5)])])), .ok (_ + 1)⟩ _ =>
    id = "default"
  | _ => false

def succeeds (e : QuotaEntry) : Bool :=
  match e.what with
  | .call ⟨.left o, r⟩ _ => o.succeeded r
  | .call ⟨.right o, r⟩ _ => o.succeeded r
  | _ => true

def readsActive : List QuotaEntry → Bool
  | ⟨1, _, .finish ⟨200, .introspection r⟩⟩ :: _ => r.active && decide (r.tenantId = some "default")
  | _ => false

theorem of_putsQuotas {e : QuotaEntry} (h : putsQuotas e = true) : Updated e "default" quotas := by
  unfold putsQuotas at h
  split at h
  . next id n d hw =>
    simp only [decide_eq_true_eq] at h
    subst h
    exact ⟨n, d, hw⟩
  . contradiction

theorem updates_of {e : QuotaEntry} {id : String} {quotas : Json} (h : Updated e id quotas) :
    updates e = true := by
  rcases h with ⟨n, d, hw⟩
  unfold updates
  rw [hw]

theorem noFailure_of {log : List QuotaEntry} (h : log.all succeeds = true) : NoFailure log := by
  intro e he d
  have hsucceeds := List.all_eq_true.mp h e he
  unfold succeeds at hsucceeds
  constructor
  . intro o r hw
    rwa [hw] at hsucceeds
  . intro o r hw
    rwa [hw] at hsucceeds

end Sample

open Sample in
/--
The quotas are reported.
-/
theorem tenant_quotas_put :
    ∃ e ∈ quotasRead.log, ∃ r, e.what = .finish ⟨200, .introspection r⟩ ∧ Tells Sample.quotas r := by
  have hchecks : quotasPut.log.any putsQuotas = true ∧ quotasRead.log.all succeeds = true
      ∧ readsActive quotasRead.log = true
      ∧ (quotasRead.log.map updates).Pairwise (fun newer older => ¬(newer = true ∧ older = true))
      ∧ (quotasPut.threads 1).isNone = true := by
    decide +kernel
  rcases hchecks with ⟨hput, hsucceeds, hread, hpairwise, hfree⟩
  have hreachable : QuotaMachine.Reachable config keyServer quotasRead :=
    (reaches_runs _ _).trans (reaches_runs _ _)
  have hstart : ⟨1, quotasPut.store, .start (.key (.introspect keyToken))⟩ :: quotasPut.log
      <:+ quotasRead.log :=
    runs_start (Option.isNone_iff_eq_none.mp hfree) _ _
  rcases List.any_eq_true.mp hput with ⟨u, hu, hupdates⟩
  have hupdated := of_putsQuotas hupdates
  rcases suffix_of_mem hu with ⟨older, hafter⟩
  generalize hlog : quotasRead.log = log at hread
  unfold readsActive at hread
  split at hread
  . next store r rest =>
    simp only [Bool.and_eq_true, decide_eq_true_eq] at hread
    refine ⟨_, List.mem_cons_self, r, rfl, ?_⟩
    have hfinish : ⟨1, store, .finish ⟨200, .introspection r⟩⟩ :: rest <:+ quotasRead.log := by
      simp only [hlog, List.suffix_refl]
    have hcold : QuotaFree keyServer := by
      intro key entry _ hentry
      have hentry : (none : Option CacheEntry) = some entry := hentry
      contradiction
    refine (tenant_quotas hcold hreachable (noFailure_of hsucceeds)).2 u older "default" Sample.quotas
      (hafter.trans (suffix_tail hstart)) hupdated _ _ keyToken hstart rfl hafter
      ⟨1, store, .finish ⟨200, .introspection r⟩⟩ rest _ r hfinish rfl rfl rfl hread.1 hread.2 ?_
    intro g older' hg hmem quotas' hagain
    have hsuffix := (List.pairwise_map.mp hpairwise).sublist ((hg.trans (suffix_tail hfinish)).sublist)
    exact (List.pairwise_cons.mp hsuffix).1 u hmem ⟨updates_of hagain, updates_of hupdated⟩
  . contradiction

end Aspectus
