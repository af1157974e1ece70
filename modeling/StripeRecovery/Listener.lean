import StripeRecovery.Notice

/-!
Who is told of notices: collectors that keep them, channels that pass them on, and logs.
Several listeners are told one after the other.
-/
namespace StripeRecovery

inductive LogLevel where
  | trace
  | debug
  | info
  | warn
  | error
deriving DecidableEq, Repr

namespace LogLevel

def name : LogLevel → String
  | trace => "trace"
  | debug => "debug"
  | info => "info"
  | warn => "warn"
  | error => "error"

def label (l : LogLevel) : String := l.name.toUpper

def rank : LogLevel → Nat
  | trace => 0
  | debug => 1
  | info => 2
  | warn => 3
  | error => 4

def ofName (name : String) : LogLevel :=
  match [trace, debug, info, warn, error].find? (·.name == name.toLower) with
  | some l => l
  | none => info

def admits (limit l : LogLevel) : Bool := limit.rank ≤ l.rank

end LogLevel

structure LogRecord where
  level : LogLevel
  message : String
  kind : String
  notice : Option Notice
deriving DecidableEq, Repr

inductive Listener where
  | collector (kept : List Notice)
  | channel (waiting : List Notice) (isOpen : Bool)
  | log (level : LogLevel)
deriving DecidableEq, Repr

namespace Listener

def collecting : Listener := .collector []

def channelling : Listener := .channel [] true

def tell (n : Notice) : Listener → Listener × List LogRecord
  | .collector kept => (.collector (kept ++ [n]), [])
  | .channel waiting true => (.channel (waiting ++ [n]) true, [])
  | .channel waiting false =>
    (.channel waiting false, [⟨.debug, "Receiver gone, event dropped", n.kind, none⟩])
  | .log level => (.log level, [⟨level, "Reconstruction event", n.kind, some n⟩])

def tellAll (n : Notice) (ls : List Listener) : List Listener × List LogRecord :=
  let told := ls.map (tell n)
  (told.map (·.1), (told.map (·.2)).flatten)

def isCollector : Listener → Bool
  | .collector _ => true
  | _ => false

def isChannel : Listener → Bool
  | .channel _ _ => true
  | _ => false

def atNumber {α : Type} (p : Listener → Bool) (f : Listener → Listener × α) :
    Nat → List Listener → List Listener × Option α
  | _, [] => ([], none)
  | n, l :: ls =>
    if p l then
      match n with
      | 0 => ((f l).1 :: ls, some (f l).2)
      | n + 1 => let (ls, a) := atNumber p f n ls; (l :: ls, a)
    else let (ls, a) := atNumber p f n ls; (l :: ls, a)

def kept : Listener → List Notice
  | .collector kept => kept
  | _ => []

def receive : Listener → Listener × Option Notice
  | .channel (n :: rest) isOpen => (.channel rest isOpen, some n)
  | l => (l, none)

def summary (ns : List Notice) : List Nat × List Nat × List Nat :=
  (ns.filterMap fun
      | .recoverable stripe => some stripe
      | _ => none,
    ns.filterMap fun
      | .unrecoverable stripe => some stripe
      | _ => none,
    ns.filterMap fun
      | .repair position => some position
      | _ => none)

end Listener
end StripeRecovery
