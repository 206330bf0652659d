import LogIt.Lib.Lts
import LogIt.Mdbx.Impl.Store

/-!
This module contains the life of the database of an `MdbxLogger`. There is one logger at a time. The
tables and the numbers in memory are cleared in two critical sections, so that batches may come
between them.
-/

namespace LogIt.MdbxLogger

/--
`clearing` are the calls of `clear_logs()` that have cleared the tables and not yet the numbers.
`stored` is history.
-/
structure Database where
  cfg : Config
  isOpen : Bool
  store : Store
  clearing : Nat
  stored : List Record

inductive DatabaseEvent where
  | write (batch : List MdbxLogItem) (world : World)
  | clearTables (options : LogClearOptions) (world : World)
  | clearSequences
  | close (world : World)
  | reopen (cfg : Config) (world : World)

namespace Database

variable (db : Database)

def write (batch : List MdbxLogItem) (world : World) : Database :=
  if batch.isEmpty then
    db
  else
    match writeBatch db.cfg batch world db.store with
    | (.ok written, store) =>
      { db with store := store, stored := db.stored ++ written.map Written.record }
    | (.error _, store) => { db with store := store }

def clearTables (options : LogClearOptions) (world : World) : Database :=
  match transaction (MdbxLogger.clearTables db.cfg options) world db.store with
  | (.ok _, store) =>
    { db with
      store := store
      clearing := db.clearing + 1
      stored := if options.includePersistentRecords then [] else db.stored
    }
  | (.error _, store) => { db with store := store }

def clearSequences : Database :=
  { db with
    store := { db.store with nextSequenceByTimestamp := fun _ => none }
    clearing := db.clearing - 1
  }

def close (world : World) : Database :=
  { db with
    isOpen := false
    store := (transaction (updateSessionEnd db.cfg) world db.store).2
  }

def reopen (cfg : Config) (world : World) : Database :=
  match transaction (openSession cfg.normalize) world ⟨db.store.tables, fun _ => none, 0, 0, 0⟩ with
  | (.ok id, store) =>
    { db with cfg := cfg.normalize, isOpen := true, store := { store with sessionId := id } }
  | (.error _, _) => db

def step (event : DatabaseEvent) : Option Database :=
  match event with
  | .write batch world => if db.isOpen then some (db.write batch world) else none
  | .clearTables options world => if db.isOpen then some (db.clearTables options world) else none
  | .clearSequences => if db.isOpen && decide (0 < db.clearing) then some db.clearSequences else none
  | .close world => if db.isOpen && db.clearing == 0 then some (db.close world) else none
  | .reopen cfg world => if db.isOpen then none else some (db.reopen cfg world)

end Database

def database : Lts Database DatabaseEvent where
  init := ⟨.default, false, ⟨.empty, fun _ => none, 0, 0, 0⟩, 0, []⟩
  step := Database.step

end LogIt.MdbxLogger
