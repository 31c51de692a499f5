import RecordQuery.Error

/-!
# Connection pools

The settings of a pool of connections, and what makes them unusable. Times are in milliseconds.
-/

namespace RecordQuery

structure PoolConfig where
  connection : String
  maxSize : Nat := 16
  streamBuffer : Nat := 64
  foreignKeys : Bool := true
  timeout : Nat := 5000
  operationTimeout : Nat := 30000
  busyTimeout : Nat := 5000
  deriving DecidableEq, Repr

def PoolConfig.validate (c : PoolConfig) : Except Error Unit :=
  if c.connection.isEmpty then .error (.configuration "connection string is empty")
  else if c.maxSize = 0 then .error (.configuration "pool max_size must be at least 1")
  else if c.streamBuffer = 0 then .error (.configuration "stream_buffer must be at least 1")
  else .ok ()

end RecordQuery
