import StripeRecovery.Pool

/-!
The settings of recovery sessions: how long a read may take, the buffer pool and the log.
-/
namespace StripeRecovery

structure LogSettings where
  level : String
  json : Bool
deriving DecidableEq, Repr

namespace LogSettings

def standard : LogSettings := ⟨"info", false⟩

def fieldNames : List String := ["level", "json"]

def toJson (c : LogSettings) : Json := .obj (fieldNames.zip [.str c.level, .bool c.json])

def ofJson? (v : Json) : Option LogSettings := do
  match ← v.fields? fieldNames with
  | [level, json] =>
    some ⟨← Json.optional? Json.text? standard.level level,
      ← Json.optional? Json.bool? standard.json json⟩
  | _ => none

end LogSettings

structure Settings where
  /-- How long a read may take, in milliseconds; without it a read may take forever. -/
  readTimeout : Option Nat
  pool : PoolSettings
  log : LogSettings
deriving DecidableEq, Repr

namespace Settings

def standard : Settings := ⟨none, .standard, .standard⟩

def check (c : Settings) : Except Error Unit :=
  if c.readTimeout = some 0 then .error (.settings .zeroTimeout) else c.pool.check

def timeLimit (c : Settings) : Option Duration := c.readTimeout.map Duration.ofMillis

def fieldNames : List String := ["read_timeout_ms", "pool", "log"]

def toJson (c : Settings) : Json :=
  .obj (fieldNames.zip [(c.readTimeout.map Json.nat).getD .null, c.pool.toJson, c.log.toJson])

def ofJson? (v : Json) : Option Settings := do
  match ← v.fields? fieldNames with
  | [readTimeout, pool, log] =>
    some ⟨← Json.optional? (Json.orNull? Json.word?) standard.readTimeout readTimeout,
      ← Json.optional? PoolSettings.ofJson? standard.pool pool,
      ← Json.optional? LogSettings.ofJson? standard.log log⟩
  | _ => none

end Settings
end StripeRecovery
