import StripeRecovery.Scenario.Script

/-!
Running a script. Reads answer in order of position once they can, on a clock that stands
still unless it is advanced. Hooks run inside the callback that they belong to.
-/
namespace StripeRecovery
namespace Scenario

abbrev Run := World Stage

def onStage (w : Run) (f : Stage → Stage) : Run := { w with aside := f w.aside }

def payloadBytes (stripe : List Shard) : Payload → List UInt8 × Nat
  | .literal bytes capacity => (bytes, capacity)
  | .chunk position length capacity =>
    let shard := stripe[position]?.getD []
    (match length with
      | some n => Bytes.fit shard n
      | none => shard, capacity)

def adopt (payload : Payload) (w : Run) : Run × Buffer :=
  let (bytes, capacity) := payloadBytes w.aside.script.stripe payload
  let (pool, buffer) := w.pool.adopt bytes capacity
  ({ w with pool := pool }, buffer)

def produce (reply : Reply) (w : Run) : Run × Answer :=
  match reply with
  | .chunk payload => let (w, b) := adopt payload w; (w, .payload b)
  | .stale payload => let (w, b) := adopt payload w; (w, .stale b)
  | .refuse e | .failure e => (w, .failure e)

def viewed (w : Run) (position : Nat) : Buffer :=
  match w.session.lease with
  | some lease => lease.stripe.buffers[position]?.getD (Buffer.unpooled [] 0)
  | none => Buffer.unpooled [] 0

def forget (name : String) (w : Run) : Run × Bool :=
  match w.aside.views.lookup name with
  | some _ =>
    (onStage w.dropView fun st => { st with views := st.views.filter (·.1 != name) }, true)
  | none => (w, false)

def look (position : Nat) (w : Run) : Run × Except Error (List UInt8) :=
  match w.view position with
  | (w, .ok buffer) => (w.dropView, .ok buffer.bytes)
  | (w, .error e) => (w, .error e)

def lookAll : List Nat → Run → Run × List (Except Error (List UInt8))
  | [], w => (w, [])
  | position :: rest, w =>
    let (w, bytes) := look position w
    let (w, others) := lookAll rest w
    (w, bytes :: others)

/-- Looks at a decoded chunk and keeps the view under a name; an older view of that name goes. -/
def keep (name : String) (position : Nat) (w : Run) : Run × Response :=
  match w.view position with
  | (w, .ok buffer) =>
    let w := (forget name w).1
    (onStage w fun st => { st with views := st.views ++ [(name, position)] },
      .chunk position buffer.bytes)
  | (w, .error e) => (w, .failure e)

def ofExcept {α : Type} (good : α → Response) : Except Error α → Response
  | .ok a => good a
  | .error e => .failure e

def actOn (out : Outside Stage) (action : Action) (w : Run) : Run × Response :=
  match action with
  | .fail position => let (w, o) := w.fail out position; (w, .outcome o)
  | .receive position payload =>
    let (w, b) := adopt payload w
    let (w, o) := w.receive out position b
    (w, .outcome o)
  | .receiveZeros position size =>
    let (pool, b) := w.pool.allocate size
    let (w, o) := World.receive out position b { w with pool := pool }
    (w, .outcome o)
  | .external position =>
    let (w, answer) := w.external position
    (w, ofExcept (fun _ => .done) answer)
  | .abort => (w.abort, .done)
  | .free => let (w, n) := w.free; (w, .count n)
  | .decode recreate =>
    let (w, answer) := w.decode out recreate
    (w, ofExcept .flag answer)
  | .get position (some name) => keep name position w
  | .get position none =>
    let (w, bytes) := look position w
    (w, ofExcept (.chunk position) bytes)
  | .getAll =>
    let (w, values) := lookAll (List.range w.session.roster.width) w
    (w, .chunks values)
  | .view name =>
    match w.aside.views.lookup name with
    | some position =>
      let b := viewed w position
      (w, .viewed b.bytes (b.shownAsView position))
    | none => (w, .missing "id")
  | .dropView name => let (w, found) := forget name w; (w, .flag found)
  | .chunkState position => (w, ofExcept .chunkState (w.session.roster.state position))
  | .phase => (w, .phase w.session.phase)
  | .info => (w, .info w.session.target.file w.session.stripe w.session.layout)
  | .display => (w, .text w.session.shown)
  | .debug => (w, .text (w.session.described "ID"))
  | .nothing => (w, .done)

def needsSession : Action → Bool
  | .view _ | .dropView _ | .nothing => false
  | _ => true

def gone : Response := .missing "session dropped"

def act (out : Outside Stage) (action : Action) (w : Run) : Run × Response :=
  if w.aside.closed && needsSession action then (w, gone) else actOn out action w

def actAll (out : Outside Stage) : List Action → Run → Run × List Response
  | [], w => (w, [])
  | action :: rest, w =>
    let (w, response) := act out action w
    let (w, responses) := actAll out rest w
    (w, response :: responses)

def runHook (out : Outside Stage) (name : String) (subject : Option Nat) (actions : List Action)
    (w : Run) : Run :=
  if actions.isEmpty then w
  else
    let (w, responses) := actAll out actions w
    onStage w fun st => { st with reactions := st.reactions ++ [.hook name subject responses] }

def onNotice (out : Outside Stage) (n : Notice) (w : Run) : Run :=
  let hooks := w.aside.script.hooks
  match n with
  | .recoverable stripe => runHook out "on_success" (some stripe) hooks.onRecoverable w
  | .unrecoverable stripe => runHook out "on_failed" (some stripe) hooks.onUnrecoverable w
  | .repair position => runHook out "on_repair" (some position) hooks.onRepair w

/-- Sends a read. A node that refuses makes the read fail at once; the local store is asked
    only after the start is over, so its refusal is an answer like any other. -/
def send (number : Nat) (route : Route) (request : ReadRequest) (w : Run) : Run × Option Error :=
  let position := request.layout.home
  let reply := w.aside.script.replies.lookup position
  let deadline := w.session.timeLimit.map fun limit =>
    w.aside.clock + limit.seconds * 1000 + limit.nanos / 1000000
  let sent : SentRead := ⟨route, request⟩
  let await (unsent : Option SentRead) (st : Stage) : Stage :=
    { st with reads := st.reads ++ [⟨number, position, reply, deadline, unsent⟩] }
  match route with
  | .local => (onStage w (await (some sent)), none)
  | .peer _ =>
    let w := onStage w fun st => { st with sent := st.sent ++ [sent] }
    match reply with
    | some (.refuse e) => (w, some e)
    | _ => (onStage w (await none), none)

def repair (out : Outside Stage) (call : DecodeCall) (w : Run) : Run × Attempt RepairCount :=
  let w := onStage w fun st => { st with reactions := st.reactions ++ [.codec call] }
  let w := runHook out "in_decode" none w.aside.script.hooks.whileDecoding w
  (w,
    match w.aside.script.codec with
    | .decode code => code.repair call.shards call.present call.offset call.length call.recreate
    | .report count => ⟨call.shards, .ok count⟩
    | .fail e => ⟨call.shards, .error e⟩)

def outside : Nat → Outside Stage
  | 0 => ⟨fun _ w => w, fun _ _ _ w => (w, none), fun call w => (w, ⟨call.shards, .ok ⟨0, 0⟩⟩)⟩
  | depth + 1 => ⟨onNotice (outside depth), send, repair (outside depth)⟩

/-- Deep enough for all hooks: a repair may decide the session, the decision may decode, and
    the codec is called once; nothing that runs then raises a notice. -/
def stageOutside : Outside Stage := outside 5

def takeReads (p : PendingRead → Bool) (w : Run) : Run × List PendingRead :=
  (onStage w fun st => { st with reads := st.reads.filter fun r => !p r }, w.aside.reads.filter p)

def report (r : PendingRead) (answer : Run → Run × Answer) (w : Run) : Run :=
  let (w, a) := answer w
  (w.deliver stageOutside r.start r.position a).1

def settle (w : Run) : Run :=
  let w := onStage w fun st => { st with
    sent := st.sent ++ st.reads.filterMap (·.unsent)
    reads := st.reads.map fun r => { r with unsent := none } }
  let (w, ready) := takeReads (·.reply.isSome) w
  ready.foldl (fun w r =>
    match r.reply with
    | some reply => report r (produce reply) w
    | none => w) w

def isLate (clock : Nat) (r : PendingRead) : Bool :=
  match r.deadline with
  | some t => t ≤ clock
  | none => false

def expire (w : Run) : Run :=
  let (w, late) := takeReads (isLate w.aside.clock) w
  late.foldl (fun w r =>
    report r (fun w => (w, .failure (.timeout r.position (w.session.timeLimit.getD ⟨0, 0⟩)))) w) w

def closeIfDone (w : Run) : Run :=
  if !w.aside.closed && !w.aside.owned && w.aside.reads.isEmpty then
    onStage w.free.1 fun st => { st with closed := true }
  else w

def onTally (w : Run) (number : Nat) (f : Tally → Run × Response) : Run × Response :=
  match w.tallies[number]? with
  | some t => f t
  | none => (w, .missing "agg")

def command (c : Command) (w : Run) : Run × Response :=
  match c with
  | .act action => act stageOutside action w
  | .start runtime =>
    if w.aside.closed then (w, gone)
    else if runtime then (settle (w.start stageOutside).1, .done)
    else (w, .failure (.internal .noRuntime))
  | .respond position reply =>
    match w.aside.reads.find? (·.position == position) with
    | some r =>
      let (w, _) := takeReads (·.position == position) w
      (report r (produce reply) w, .flag true)
    | none => (w, .flag false)
  | .advance ms => (expire (onStage w fun st => { st with clock := st.clock + ms }), .done)
  | .deliver number position reply =>
    if w.aside.closed then (w, gone)
    else onTally w number fun _ =>
      let (w, answer) := produce reply w
      let (w, o) := w.deliver stageOutside number position answer
      (w, .outcome o)
  | .drained number =>
    if w.aside.closed then (w, gone) else onTally w number fun t => (w, .flag t.isDrained)
  | .tally number =>
    if w.aside.closed then (w, gone)
    else onTally w number fun t => (w, .tally (t.shown w.session.stripe) w.session.stripe)
  | .drop =>
    (onStage { w with tallies := [] } fun st => { st with owned := false }, .flag w.aside.owned)

structure Report where
  response : Response
  session : Option Session
  pool : Pool
  tallies : List Tally
  notices : List Notice
  reactions : List Reaction
  sent : List SentRead

def step (c : Command) (w : Run) : Run × Report :=
  let (w, response) := command c w
  let w := closeIfDone w
  let report : Report := ⟨response, if w.aside.closed then none else some w.session, w.pool,
    w.tallies, w.notices, w.aside.reactions, w.aside.sent⟩
  ({ w with notices := [], aside := { w.aside with reactions := [], sent := [] } }, report)

def steps : List Command → Run → List Report
  | [], _ => []
  | c :: rest, w =>
    let (w, report) := step c w
    report :: steps rest w

def play (session : Session) (pool : Pool) (script : Script) (commands : List Command) :
    List Report :=
  steps commands ⟨session, pool, [], [], ⟨script, 0, [], [], true, false, [], []⟩⟩

def standardChunk (size i : Nat) : List UInt8 := Bytes.pattern size 7 (i * 31) 251

/-- The stripe under recovery: the given chunks at their full size, standard ones where none
    is given, and the parity. -/
def stripeOf (code : Code) (size : Nat) (given : List (List UInt8)) : Except Error (List Shard) :=
  code.encode ((List.range code.data).map fun i =>
    match given[i]? with
    | some bytes => Bytes.fit bytes size
    | none => standardChunk size i)

end Scenario
end StripeRecovery
