import StripeRecovery.Settings
import StripeRecovery.Listener

/-!
The log of a process. It is installed once, with a level below which nothing is written and
with one of two line formats.
-/
namespace StripeRecovery

def LogSettings.limit (c : LogSettings) : LogLevel := .ofName c.level

structure Log where
  installed : Option LogSettings
deriving DecidableEq, Repr

namespace Log

def new : Log := ⟨none⟩

def install (l : Log) (c : LogSettings) : Log × Except Error Unit :=
  match l.installed with
  | none => (⟨some c⟩, .ok ())
  | some _ => (l, .error (.settings .logInstalled))

def origin : String := "stripe_rebuild::adapters::callbacks"

def line (c : LogSettings) (r : LogRecord) : List String :=
  if c.json then ["json", r.level.label, origin, r.message, r.kind]
  else ["text", r.level.label, origin ++ ":", r.message, "event_type=" ++ r.kind]

def lines (l : Log) (rs : List LogRecord) : List (List String) :=
  match l.installed with
  | some c => (rs.filter fun r => c.limit.admits r.level).map (line c)
  | none => []

/-- One notice of each kind: the first to a log at `info`, the others at `debug`. -/
def trial : List LogRecord :=
  [(.recoverable 7, Listener.log .info), (.unrecoverable 8, .log .debug), (.repair 9, .log .debug)]
    |>.flatMap fun (n, l) => (l.tell n).2

end Log
end StripeRecovery
