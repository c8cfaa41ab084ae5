import HeyServer.Hub.Repository

/-!
# Agent hub: what an operation commits

`exec_dbStep` says once what one operation can do to the database. The theorems
about tasks, profiles and nodes take their step lemmas from it.
-/

namespace HeyServer.Hub
open Lib HubState

theorem initial_tasks (id : Nat) : initial.db.tasks.get? id = none := rfl

/-- What an operation can do to the database. -/
inductive DbStep (db : Db) : Op → Db → Prop
  | same (op : Op) : DbStep db op db
  | register {id name tokenHash stamp} (hnone : db.nodes id = none) :
      DbStep db (.insertNode id name tokenHash stamp)
        { db with nodes := Function.update db.nodes id (some (newNodeRow name tokenHash stamp)) }
  | beat {nodeId columns stamp row} (hrow : db.nodes nodeId = some row)
      (hallowed : db.updateHeartbeat nodeId columns stamp = .ok
        ({ db with
            nodes := Function.update db.nodes nodeId (some (row.seen columns stamp))
            observations :=
              Function.update db.observations nodeId (observationRow columns stamp) }, ())) :
      DbStep db (.updateHeartbeat nodeId columns stamp)
        { db with
          nodes := Function.update db.nodes nodeId (some (row.seen columns stamp))
          observations := Function.update db.observations nodeId (observationRow columns stamp) }
  | save {nodeId normalized expected stamp revision}
      (hok : db.saveNodeProfile nodeId normalized expected stamp = .ok
        ({ db with profiles :=
            Function.update db.profiles nodeId (some ⟨normalized.marshal, revision, stamp⟩) },
          revision)) :
      DbStep db (.saveProfile nodeId normalized expected stamp)
        { db with profiles :=
            Function.update db.profiles nodeId (some ⟨normalized.marshal, revision, stamp⟩) }
  | enqueue {nodeId kind payload stamp} :
      DbStep db (.insertTask nodeId kind payload stamp)
        { db with tasks := db.tasks.insert (newTaskRow nodeId kind payload stamp) }
  | apply {nodeId revision normalized payload stamp stored}
      (hstored : db.profiles nodeId = some stored) (hrevision : stored.revision = revision)
      (hcheck : stored.check normalized = .ok ()) (hnone : db.inFlightApplies nodeId = []) :
      DbStep db (.createApply nodeId revision normalized payload stamp)
        { db with tasks := db.tasks.insert (newTaskRow nodeId .profileApply payload stamp) }
  | claim {stamp id row} (hget : db.tasks.get? id = some row) (hstatus : row.status = .queued) :
      DbStep db (.claimTask row.nodeId stamp)
        { db with tasks := db.tasks.update (fun id' _ => id' = id) (TaskRow.claimed stamp) }
  | report {nodeId taskId columns stamp} :
      DbStep db (.completeTask nodeId taskId columns stamp)
        { db with
          tasks := db.tasks.update (completes nodeId taskId) (TaskRow.reported columns stamp) }

/-- A transaction that fails changes nothing. -/
theorem HubState.commit_step {α : Type} {s : HubState} {op : Op} {x : Except HubError (Db × α)}
    (h : ∀ db a, x = .ok (db, a) → DbStep s.db op db) : DbStep s.db op (s.commit x).1.db := by
  cases x with
  | error e => exact .same op
  | ok committed => exact h committed.1 committed.2 rfl

theorem exec_dbStep (s : HubState) (op : Op) : DbStep s.db op (s.exec op).1.db := by
  cases op with
  | insertNode id name tokenHash stamp =>
    apply commit_step
    intro db a hok
    obtain ⟨hnone, rfl⟩ := Db.insertNode_ok hok
    exact .register hnone
  | updateHeartbeat nodeId columns stamp =>
    apply commit_step
    intro db a hok
    obtain ⟨row, hrow, rfl⟩ := Db.updateHeartbeat_ok hok
    exact .beat hrow hok
  | saveProfile nodeId normalized expected stamp =>
    apply commit_step
    intro db revision hok
    obtain ⟨-, -, rfl⟩ := Db.saveNodeProfile_ok hok
    exact .save hok
  | insertTask nodeId kind payload stamp =>
    apply commit_step
    intro db id hok
    obtain ⟨rfl, -⟩ := Db.insertTask_ok hok
    exact .enqueue
  | createApply nodeId revision normalized payload stamp =>
    apply commit_step
    intro db id hok
    rcases Db.createProfileApplyTask_ok hok with
      rfl | ⟨⟨stored, hstored, hrevision, hcheck⟩, hnone, rfl⟩
    · exact .same _
    · exact .apply hstored hrevision hcheck hnone
  | claimTask nodeId stamp =>
    rcases s.db.claimNextTask_cases nodeId stamp with h | ⟨id, row, hget, rfl, hstatus, -, h⟩
    · rw [exec, h]
      exact .same _
    · rw [exec, h]
      exact .claim hget hstatus
  | completeTask nodeId taskId columns stamp =>
    apply commit_step
    intro db affected hok
    obtain ⟨-, rfl⟩ := Db.completeTask_ok hok
    exact .report
  | _ => exact .same _

end HeyServer.Hub
