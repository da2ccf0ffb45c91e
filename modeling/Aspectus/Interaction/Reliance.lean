import Aspectus.Interaction.Discipline

/-!
This module contains the rule for programs that rely on each other: as long as the answers of the store are
good the programs only call good operations, and as long as the operations are good so are the answers.
-/

namespace Interaction

variable {S : Signature} {σ δ Req Resp α : Type}

/--
The operation is good if all answers so far were.
-/
def Relies (A : Event S → Prop) (G : S.Op → Prop) (h : List (Event S)) (o : S.Op) : Prop :=
  (∀ ev ∈ h, A ev) → G o

section Rules

variable {A : Event S → Prop} {G : S.Op → Prop} {post : List (Event S) → α → Prop}
  {h : List (Event S)}

/--
An operation that is good anyway.
-/
theorem Relies.of_good {o : S.Op} (ho : G o) : Relies A G h o :=
  fun _ => ho

/--
A program whose operations are all good anyway.
-/
theorem Prog.Uses.relies {p : Prog S α} (hp : p.Uses G) (hpost : ∀ new a, post (new ++ h) a) :
    p.Conforms (Relies A G) post h :=
  hp.conforms (fun _ _ ho => .of_good ho) hpost

/--
A program that is good once the answers before it were.
-/
theorem Prog.relies_of_conforms {Q : α → Prop} {p : Prog S α}
    (hp : (∀ ev ∈ h, A ev) → p.Conforms (fun _ o => G o) (fun _ a => Q a) h)
    : p.Conforms (Relies A G) (fun h a => (∀ ev ∈ h, A ev) → Q a) h := by
  by_cases hgood : ∀ ev ∈ h, A ev
  . exact (hp hgood).mono (fun _ _ ho _ => ho) fun _ _ ha _ => ha
  . have hbad : ∀ new : List (Event S), ¬∀ ev ∈ new ++ h, A ev :=
      fun new hall => hgood fun ev hev => hall ev (List.mem_append_right new hev)
    have hvacuous : p.Conforms (fun _ _ => True) (fun h a => (∀ ev ∈ h, A ev) → Q a) h :=
      conforms_of_append p fun new a hall => absurd hall (hbad new)
    exact hvacuous.mono (fun new _ _ hall => absurd hall (hbad new)) fun _ _ ha => ha

/--
A discipline that a program only has under some condition.
-/
theorem Prog.conforms_imp {C : Prop} {guard : List (Event S) → S.Op → Prop} {p : Prog S α}
    (hp : C → p.Conforms guard post h)
    : p.Conforms (fun h o => C → guard h o) (fun h a => C → post h a) h := by
  induction p generalizing h with
  | pure a => exact hp
  | call o k ih =>
    refine ⟨fun hc => (hp hc).1, ?_⟩
    intro r
    apply ih
    intro hc
    exact (hp hc).2 r

end Rules

namespace Machine

variable {I : Semantics S σ δ} {handler : Req → Prog S Resp} {A : Event S → Prop} {G : S.Op → Prop}
  {post : Req → List (Event S) → Resp → Prop} {C : Req → Prop} {P : σ → Prop}
  (spec : ∀ q, C q → (handler q).Conforms (Relies A G) (post q) [])
  (hstep : ∀ o d s, G o → P s → P (I.exec o d s).2 ∧ A ⟨o, (I.exec o d s).1⟩)
  (hadvance : ∀ n s, P s → P (I.advance n s))

include spec hstep hadvance

/--
The rule of reliance: if all requests meet the condition `C` of the discipline, then in every state of every
execution the store is as it should be, and all operations so far and their answers were good.
-/
theorem Reaches.relies {s : σ} (hs : P s) {m : Machine S σ δ Req Resp}
    (h : Reaches I handler (init s) m) (hreq : ∀ i q, Started m.log i q → C q)
    : P m.store ∧ ∀ e ∈ m.log, ∀ ev d, e.what = .call ev d → A ev ∧ G ev.op := by
  revert hreq
  refine h.inv (P := fun m => (∀ i q, Started m.log i q → C q) →
    P m.store ∧ ∀ e ∈ m.log, ∀ ev d, e.what = .call ev d → A ev ∧ G ev.op) ?_ ?_
  . intro _
    exact ⟨hs, nofun⟩
  . intro m m' hm ih hchange hreq
    cases hchange with
    | none => exact ih hreq
    | tick n =>
      rcases ih hreq with ⟨hstore, hlog⟩
      exact ⟨hadvance n _ hstore, hlog⟩
    | start i q hfree =>
      rcases ih fun j q' hq' => hreq j q' (hq'.cons _) with ⟨hstore, hlog⟩
      exact ⟨hstore, List.forall_mem_cons.mpr ⟨nofun, hlog⟩⟩
    | finish i q a hrun =>
      rcases ih fun j q' hq' => hreq j q' (hq'.cons _) with ⟨hstore, hlog⟩
      exact ⟨hstore, List.forall_mem_cons.mpr ⟨nofun, hlog⟩⟩
    | call i d q o k hrun =>
      have hreq' : ∀ j q', Started m.log j q' → C q' := fun j q' hq' => hreq j q' (hq'.cons _)
      rcases ih hreq' with ⟨hstore, hlog⟩
      -- What is left of the thread conforms, because its request meets the condition.
      have hcond := hreq' i q (hm.served.started i _ hrun)
      have hrelies := (hm.conforms (fun q => Prog.conforms_imp (spec q)) i q _ hrun).1 hcond
      have hgood : G o := by
        apply hrelies
        intro ev hev
        rcases mem_eventsOf.mp hev with ⟨e, he, _, d', hw⟩
        exact (hlog e he ev d' hw).1
      rcases hstep o d m.store hgood hstore with ⟨hstore', hanswer⟩
      refine ⟨hstore', List.forall_mem_cons.mpr ⟨?_, hlog⟩⟩
      rintro _ _ ⟨⟩
      exact ⟨hanswer, hgood⟩

/--
Under the same condition every response was allowed, and all answers before it were good.
-/
theorem Reaches.relies_finished {s : σ} (hs : P s) {m : Machine S σ δ Req Resp}
    (h : Reaches I handler (init s) m) (hreq : ∀ i q, Started m.log i q → C q)
    {e : Entry S σ δ Req Resp} (he : e ∈ m.log) {a : Resp} (hw : e.what = .finish a)
    : ∃ q evs, Started m.log e.thread q
        ∧ (∀ ev ∈ evs, ev ∈ eventsOf e.thread m.log ∧ A ev ∧ G ev.op) ∧ post q evs a := by
  have hlog := (Reaches.relies spec hstep hadvance hs h hreq).2
  rcases List.mem_iff_append.mp he with ⟨newer, rest, hsplit⟩
  have hsuffix : e :: rest <:+ m.log := ⟨newer, hsplit.symm⟩
  rcases h.finished (fun q => Prog.conforms_imp (spec q)) hsuffix hw with ⟨q, hstarted, hpost⟩
  have htail : rest <:+ m.log := (List.suffix_cons e rest).trans hsuffix
  have hstarted' := hstarted.of_suffix htail
  refine ⟨q, _, hstarted', ?_, hpost (hreq _ q hstarted')⟩
  intro ev hev
  rcases mem_eventsOf.mp hev with ⟨e', he', hi, d, hw'⟩
  exact ⟨mem_eventsOf.mpr ⟨e', htail.mem he', hi, d, hw'⟩, hlog e' (htail.mem he') ev d hw'⟩

end Machine
end Interaction
