import StripeRecovery.Listener

/-!
Scripted notices to a row of listeners.
-/
namespace StripeRecovery.Scenario

inductive ListenerAction where
  | tell (notice : Notice)
  | kept (n : Nat) (kind : Option String)
  | summary (n : Nat)
  | clear (n : Nat)
  | receive (n : Nat)
  | close (n : Nat)
deriving DecidableEq, Repr

inductive ListenerResponse where
  | done
  | notices (value : List Notice)
  | summary (kept : List Notice)
  | received (value : Option Notice)
  | closed
  | missing (what : String)
deriving DecidableEq, Repr

structure ListenerReport where
  response : ListenerResponse
  records : List LogRecord
deriving DecidableEq, Repr

def orMissing (r : List Listener × Option ListenerResponse) : List Listener × ListenerResponse :=
  (r.1, r.2.getD (.missing "n"))

def ofCollector (n : Nat) (f : List Notice → List Notice × ListenerResponse)
    (ls : List Listener) : List Listener × ListenerResponse :=
  orMissing <| Listener.atNumber Listener.isCollector
    (fun l => let (kept, r) := f l.kept; (.collector kept, r)) n ls

def ofChannel (n : Nat) (f : Listener → Listener × ListenerResponse) (ls : List Listener) :
    List Listener × ListenerResponse :=
  orMissing (Listener.atNumber Listener.isChannel f n ls)

def receiveFrom : Listener → Listener × ListenerResponse
  | .channel waiting false => (.channel waiting false, .closed)
  | l => let (l, n) := l.receive; (l, .received n)

def listenerAct (ls : List Listener) : ListenerAction → List Listener × ListenerResponse
  | .tell _ => (ls, .done)
  | .kept n none => ofCollector n (fun kept => (kept, .notices kept)) ls
  | .kept n (some kind) =>
    ofCollector n (fun kept => (kept, .notices (kept.filter (·.kind == kind)))) ls
  | .summary n => ofCollector n (fun kept => (kept, .summary kept)) ls
  | .clear n => ofCollector n (fun _ => ([], .done)) ls
  | .receive n => ofChannel n receiveFrom ls
  | .close n => ofChannel n (fun _ => (.channel [] false, .done)) ls

def playListeners : List Listener → List ListenerAction → List ListenerReport
  | _, [] => []
  | ls, .tell n :: rest =>
    let (ls, records) := Listener.tellAll n ls
    ⟨.done, records⟩ :: playListeners ls rest
  | ls, a :: rest =>
    let (ls, response) := listenerAct ls a
    ⟨response, []⟩ :: playListeners ls rest

end StripeRecovery.Scenario
