import Aspectus.Interaction.Run
import Aspectus.Routes.Response
import Aspectus.Store.Frame

/-!
This module contains what it does to record an event in the audit log.
-/

namespace Aspectus

open Interaction Prog

variable {cfg : Config}

/--
Reading the clock takes one operation and changes nothing.
-/
theorem run_clock {α : Type} (f : Instant → App α) (draws : Nat → Draw) (s : Server) :
    (perform (S := Api) (.host .now) >>= f).run (semantics cfg) draws s
      = (f s.now).run (semantics cfg) (fun n => draws (n + 1)) s := by
  rfl

/--
The entry that is appended for an event.
-/
def AuditAuthParams.entry (params : AuditAuthParams) (now : Instant) : AuditLog where
  tenantId := params.tenantId
  actorId := params.actorId
  actorType := params.actorType
  action := params.action
  targetType := params.targetType
  targetId := params.targetId
  metadata := params.metadata
  createdAt := now

/--
Recording an event takes three operations, only the last of them writes.
-/
theorem run_auditEvent (params : AuditAuthParams) (draws : Nat → Draw) (s : Server) :
    (auditEvent params).run (semantics cfg) draws s
      =
    ((), fun n => draws (n + 3),
      (Op.exec cfg (.auditAppend (draws 0).id (params.entry s.now)) (draws 2) s).2) := by
  rfl

variable (cfg) in
theorem auditEvent_store (params : AuditAuthParams) (draws : Nat → Draw) (s : Server) :
    ∃ auditLogs, ((auditEvent params).run (semantics cfg) draws s).2.2
      = { s with auditLogs := auditLogs } := by
  rw [run_auditEvent]
  exact auditAppend_frame _ s cfg _ _

variable (cfg) in
/--
An answer that is given after an event was recorded.
-/
theorem run_audited {α : Type} (params : AuditAuthParams) (p : App α) (draws : Nat → Draw) (s : Server) :
    ∃ auditLogs, (auditEvent params >>= fun _ => p).run (semantics cfg) draws s
      = p.run (semantics cfg) (fun n => draws (n + 3)) { s with auditLogs := auditLogs } := by
  rcases auditEvent_store cfg params draws s with ⟨auditLogs, h⟩
  refine ⟨auditLogs, ?_⟩
  rw [run_bind, h, run_auditEvent]

end Aspectus
