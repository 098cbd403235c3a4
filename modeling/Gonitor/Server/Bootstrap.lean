import Gonitor.Server.Operations

/-!
# The Bootstrapped Database

What `initDb` does once the tables are there: it creates the master node and the user `admin`,
each where its query finds no row.
-/

namespace Gonitor.Server

open Gonitor.Model SoftDelete AtomicProgram

/-- The master node as it is inserted. -/
def initialMaster : Node :=
  { toStamps := Base.zero, name := "主节点", region := "本地", isMaster := true, status := 1,
    remark := "默认主控节点" }

/-- The first half of `initDb`. -/
def initMaster : Program Unit := do
  match ← findMaster with
  | .error .recordNotFound => do
    let _ ← createNode initialMaster
    pure ()
  -- any other error counts as a node that has been found
  | _ => pure ()

/-- The user as it is inserted. -/
def initialAdmin (hashedPassword : String) : User :=
  { toStamps := Base.zero, loginAccount := "admin", password := hashedPassword,
    avatar := "https://mui.com/static/images/avatar/1.jpg" }

/-- The second half of `initDb`. -/
def initAdmin : Program Unit := do
  match ← findUserByAccount "admin" with
  | .error .recordNotFound => do
    match ← hashPassword "123456" with
    | .error _ => pure ()
    | .ok hashedPassword => do
      let _ ← createUser (initialAdmin hashedPassword)
      pure ()
  | _ => pure ()

/-- `initDb`, on a database whose tables have been migrated. -/
def initDb : Program Unit := do
  initMaster
  initAdmin

end Gonitor.Server
