import Aspectus.Discipline.Basic
import Aspectus.Interaction.History
import Aspectus.Store.Rows

/-!
This module contains what a single entry of a log says about the database before and after it, no
matter which requests are served.
-/

namespace Aspectus

open Interaction Machine Statement

variable {Req Resp : Type}

/--
The entry records that the operation `o` was called and gave the answer `r`.
-/
def Did (e : Entry Api Server Draw Req Resp) (o : Op) (r : o.Res) : Prop :=
  ∃ d, e.what = .call ⟨o, r⟩ d

theorem called_eventsOf {log : List (Entry Api Server Draw Req Resp)} {i : Nat} {o : Op} {r : o.Res} :
    Called (eventsOf i log) o r ↔ ∃ e ∈ log, e.thread = i ∧ Did e o r :=
  mem_eventsOf

/--
A call that a thread has made is located by an entry.
-/
theorem Called.located {log : List (Entry Api Server Draw Req Resp)} {i : Nat} {o : Op} {r : o.Res}
    (h : Called (eventsOf i log) o r)
    : ∃ e rest, e :: rest <:+ log ∧ e.thread = i ∧ Did e o r := by
  rcases called_eventsOf.mp h with ⟨e, he, hi, hdid⟩
  rcases suffix_of_mem he with ⟨rest, hrest⟩
  exact ⟨e, rest, hrest, hi, hdid⟩

theorem absent_eventsOf {p : Op → Bool} {log : List (Entry Api Server Draw Req Resp)} {i : Nat}
    (h : Absent p (eventsOf i log)) {e : Entry Api Server Draw Req Resp} (he : e ∈ log) (hi : e.thread = i) {o : Op}
    {r : o.Res} (hdid : Did e o r) : p o = false :=
  h _ (called_eventsOf.mpr ⟨e, he, hi, hdid⟩)

variable {cfg : Config} {e : Entry Api Server Draw Req Resp}

theorem post_call {ev : Event Api} {d : Draw} (hw : e.what = .call ev d)
    : e.post (semantics cfg) = (Op.exec cfg ev.op d e.pre).2 := by
  unfold Entry.post
  rw [hw]
  rfl

theorem Did.exec {o : Op} {r : o.Res} (h : Did e o r) (hs : Entry.Sound (semantics cfg) e)
    : ∃ d, r = (o.exec cfg d e.pre).1 ∧ e.post (semantics cfg) = (o.exec cfg d e.pre).2 := by
  rcases h with ⟨d, hw⟩
  refine ⟨d, hs _ d hw, ?_⟩
  unfold Entry.post
  rw [hw]
  rfl

/--
What a successful write says about the database before and after it.
-/
theorem Did.run {α : Type} {o : Op} {r : o.Res} (h : Did e o r)
    (hs : Entry.Sound (semantics cfg) e) {params : List String} {f : Server → Result (α × Server)}
    {a : α} (hexec : ∀ d, r = (o.exec cfg d e.pre).1 →
      (Statement.run d params f e.pre).1 = .ok a
        ∧ (o.exec cfg d e.pre).2 = (Statement.run d params f e.pre).2)
    : f e.pre = .ok (a, e.post (semantics cfg)) := by
  rcases h.exec hs with ⟨d, hres, hpost⟩
  rcases hexec d hres with ⟨h1, h2⟩
  rw [hpost, h2]
  exact run_ok h1

/--
What a successful read says about the database.
-/
theorem Did.query {α : Type} {o : Op} {r : o.Res} (h : Did e o r)
    (hs : Entry.Sound (semantics cfg) e) {params : List String} {f : Server → Result α} {a : α}
    (hexec : ∀ d, r = (o.exec cfg d e.pre).1 → (Statement.query d params f e.pre).1 = .ok a)
    : f e.pre = .ok a := by
  rcases h.exec hs with ⟨d, hres, _⟩
  exact query_ok (hexec d hres)

theorem Did.unique {o o' : Op} {r : o.Res} {r' : o'.Res} (h : Did e o r)
    (h' : Did e o' r') : o = o' := by
  rcases h with ⟨d, hw⟩
  rcases h' with ⟨d', hw'⟩
  rw [hw] at hw'
  injection hw' with hev
  injection hev

end Aspectus
