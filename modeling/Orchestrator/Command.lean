import Orchestrator.Redis
import Orchestrator.Concurrency.Coroutine

namespace Orchestrator
open Concurrency
set_option autoImplicit true

structure Settings where
  lockTtl : Nat
  streamTimeout : Rat
  maxRetries : Int

/-- The settings of a deployment, and what comes from outside the repository: SHA-256, `repr` of
a string, the text of a float, and the JSON text that `EventBus.publish` makes of an event, or the
exception it raises. -/
structure Setup (Event : Type) where
  settings : Settings
  sha256 : String → String
  repr : String → String
  reprFloat : Rat → String
  encode : Event → Except Exc String

/-- An engine iterator: the events it yields, and how it ends. -/
structure Iter (Event : Type) where
  events : List Event
  ending : Except Exc Unit

inductive ThreadState where
  | queued | running | done (o : Except Exc Unit) | dropped

/-- A call of `_consume_sync` handed to the executor. -/
structure Thread (Event : Type) where
  taskId : String
  projectName : String
  remaining : List Event
  ending : Except Exc Unit
  state : ThreadState

inductive HeartbeatState where
  | sleeping | refreshing | ended (e : Exc)

/-- A heartbeat task. `inflight` tells that Redis may still run a refresh it has sent. -/
structure Heartbeat where
  projectName : String
  state : HeartbeatState
  inflight : Bool

inductive Stage where
  | stopped | recovering | serving
  deriving DecidableEq

structure World (Text Event : Type) where
  redis : Redis Text
  usedIds : List String
  heartbeats : String → Option Heartbeat
  threads : List (Thread Event)
  stage : Stage
  running : Bool

def World.init : World Text Event where
  redis := .empty
  usedIds := []
  heartbeats := fun _ => none
  threads := []
  stage := .stopped
  running := false

/-- A key that matches the pattern `cio:task:*`. -/
inductive ScanKey where
  | task (id : String)
  | digest (h : String)
  deriving DecidableEq

/-- The two lines that `_execute` logs. They tell which way an execution went. -/
inductive LogLine where
  | lockBusy (project id : String)
  | lockStolen (project id : String)
  deriving DecidableEq

/-- What a coroutine asks of Redis, of asyncio, or of the engine. -/
inductive Cmd (Text Event : Type) where
  | get (id : String)
  | setNx (id : String) (x : Text)
  | set (id : String) (x : Text)
  | sadd (project id : String)
  | smembers (project : String)
  | mget (ids : List String)
  | getDigest (h : String)
  | setDigest (h id : String)
  | delDigest (h : String)
  | lpush (x : Text)
  | brpop
  | scan
  | publish (channel data : String)
  | acquireLock (project token : String) (ttl : Nat)
  | evalRelease (project token : String)
  | now
  | uuid4
  | sleep
  | log (line : LogLine)
  | createHeartbeat (project token : String)
  | cancelHeartbeat (token : String)
  | awaitHeartbeat (token : String)
  | factoryGet (workDir configJson : Option String)
  | projectExists (project : String)
  | setProjectName (project : String)
  | checkpointExists (project : String)
  | iterEvents (mode : TaskMode) (project requirement : String)
  | runInExecutor (id project : String) (it : Iter Event)
  | awaitFuture (n : Nat) (timeout : Rat)

/-- The type of a reply. The pages of a scan are the replies to its calls, cursors included. -/
@[reducible] def Cmd.Reply : Cmd Text Event → Type
  | .get _ => Option Text
  | .setNx .. => Bool
  | .smembers _ => List String
  | .mget _ => List (Option Text)
  | .getDigest _ => Option String
  | .brpop => Option Text
  | .scan => List (Nat × List ScanKey)
  | .acquireLock .. => Bool
  | .now => Nat
  | .uuid4 => String
  | .projectExists _ => Bool
  | .checkpointExists _ => Bool
  | .iterEvents .. => Iter Event
  | .runInExecutor .. => Nat
  | _ => Unit

abbrev Cmd.Answer (c : Cmd Text Event) : Type := Except Exc c.Reply

namespace World

def onRedis (w : World Text Event) (f : Redis Text → Redis Text) : World Text Event :=
  { w with redis := f w.redis }

def setHeartbeat (w : World Text Event) (token : String) (hb : Heartbeat) : World Text Event :=
  { w with heartbeats := Function.update w.heartbeats token (some hb) }

def setThread (w : World Text Event) (n : Nat) (th : Thread Event) : World Text Event :=
  { w with threads := w.threads.set n th }

/-- Cancelling the future of a thread drops the call if no thread has picked it up yet. A call
that runs goes on. -/
def cancelFuture (w : World Text Event) (n : Nat) : World Text Event :=
  match w.threads[n]? with
  | some th =>
    match th.state with
    | .queued => w.setThread n { th with state := .dropped }
    | _ => w
  | none => w

/-- `heartbeat_task.cancel()`. -/
def cancelHeartbeat (w : World Text Event) (token : String) : World Text Event :=
  match w.heartbeats token with
  | some hb =>
    match hb.state with
    | .ended _ => w
    | _ => w.setHeartbeat token { hb with state := .ended ⟨.cancelled, ""⟩ }
  | none => w

end World

/-- asyncio hands the result of a thread on, with the future exceptions of `concurrent.futures`
replaced by its own. -/
def convertFutureExc (e : Exc) : Exc :=
  if e.cls = .futuresCancelled then { e with cls := .cancelled } else e

/-- A complete scan goes on up to cursor zero and names every stored task at least once. -/
structure CompleteScan (r : Redis Text) (pages : List (Nat × List ScanKey)) : Prop where
  ends : ∃ before keys, pages = before ++ [(0, keys)] ∧ ∀ page ∈ before, page.1 ≠ 0
  covers : ∀ id ∈ r.tasks.keys, ∃ page ∈ pages, ScanKey.task id ∈ page.2

theorem completeScan_keys (r : Redis Text) : CompleteScan r [(0, r.tasks.keys.map .task)] :=
  ⟨⟨[], _, rfl, nofun⟩,
    fun _ hid => ⟨_, List.mem_singleton_self _, List.mem_map_of_mem hid⟩⟩

/-- A call out of the repository that is made before the task runs returns anything, or raises an
`Exception`. -/
def External (r : Except Exc α) : Prop := ∀ e, r = .error e → e.isException = true

/-- The engine may raise what it likes, but for a cancellation: it is called, not awaited. -/
def NotCancelled (r : Except Exc α) : Prop := ∀ e, r = .error e → e.cls ≠ .cancelled

/-- The reply to a command, and the world after it. -/
def exec (c : Cmd Text Event) (r : c.Answer) (w w' : World Text Event) : Prop :=
  match c, r with
  | .get id, r => r = .ok (w.redis.tasks.lookup id) ∧ w' = w
  | .setNx id x, r =>
    if id ∈ w.redis.tasks then r = .ok false ∧ w' = w
    else r = .ok true ∧ w' = w.onRedis (·.set id x)
  | .set id x, r => r = .ok () ∧ w' = w.onRedis (·.set id x)
  | .sadd p id, r => r = .ok () ∧ w' = w.onRedis (·.sadd p id)
  | .smembers p, r => (∃ ids, r = .ok ids ∧ ids.Perm (w.redis.projectTasks p)) ∧ w' = w
  | .mget ids, r => r = .ok (ids.map w.redis.tasks.lookup) ∧ w' = w
  | .getDigest h, r => r = .ok (w.redis.digests h) ∧ w' = w
  | .setDigest h id, r => r = .ok () ∧ w' = w.onRedis (·.setDigest h (some id))
  | .delDigest h, r => r = .ok () ∧ w' = w.onRedis (·.setDigest h none)
  | .lpush x, r => r = .ok () ∧ w' = w.onRedis (·.lpush x)
  | .brpop, r =>
    match w.redis.queue.getLast? with
    | none => r = .ok none ∧ w' = w
    | some x => r = .ok (some x) ∧ w' = w.onRedis fun q => { q with queue := q.queue.dropLast }
  | .scan, r => (∃ pages, r = .ok pages ∧ CompleteScan w.redis pages) ∧ w' = w
  | .publish ch data, r => r = .ok () ∧ w' = w.onRedis (·.publish ch data)
  -- An expiry of 0 is refused: the command then fails like one that Redis does not get.
  | .acquireLock p τ ttl, r =>
    match w.redis.locks p with
    | some _ => (r = .ok false ∧ 0 < ttl) ∧ w' = w
    | none => (r = .ok true ∧ 0 < ttl) ∧ w' = w.onRedis (·.setLock p (some ⟨τ, ttl⟩))
  | .evalRelease p τ, r => r = .ok () ∧ w' = w.onRedis (·.evalRelease p τ)
  | .now, r => (∃ t, r = .ok t) ∧ w' = w
  | .uuid4, r => ∃ u, u ∉ w.usedIds ∧ r = .ok u ∧ w' = { w with usedIds := u :: w.usedIds }
  | .sleep, r => r = .ok () ∧ w' = w
  | .log _, r => r = .ok () ∧ w' = w
  | .createHeartbeat p τ, r => r = .ok () ∧ w' = w.setHeartbeat τ ⟨p, .sleeping, false⟩
  | .cancelHeartbeat τ, r => r = .ok () ∧ w' = w.cancelHeartbeat τ
  | .awaitHeartbeat τ, r =>
    (∃ hb e, w.heartbeats τ = some hb ∧ hb.state = .ended e ∧ r = .error e) ∧ w' = w
  | .factoryGet .., r => External r ∧ w' = w
  | .projectExists _, r => External r ∧ w' = w
  | .setProjectName _, r => External r ∧ w' = w
  | .checkpointExists _, r => External r ∧ w' = w
  | .iterEvents .., r => NotCancelled r ∧ w' = w
  | .runInExecutor id p it, r => r = .ok w.threads.length ∧
      w' = { w with threads := w.threads ++ [⟨id, p, it.events, it.ending, .queued⟩] }
  | .awaitFuture n timeout, r =>
    (∃ th o, w.threads[n]? = some th ∧ th.state = .done o ∧ r = o.mapError convertFutureExc ∧
      w' = w) ∨
    (0 < timeout ∧ (∃ m, r = .error ⟨.timeout, m⟩) ∧ w' = w.cancelFuture n)

/-- Commands that go over the connection to Redis. -/
def Cmd.onRedis : Cmd Text Event → Bool
  | .now | .uuid4 | .sleep | .log _ | .createHeartbeat .. | .cancelHeartbeat _
  | .awaitHeartbeat _ | .factoryGet .. | .projectExists _ | .setProjectName _
  | .checkpointExists _ | .iterEvents .. | .runInExecutor .. | .awaitFuture .. => false
  | _ => true

/-- Commands at which a coroutine is suspended, so that a cancellation can arrive.
`TaskStore.update` is synchronous, so its writes are not among them. -/
def Cmd.awaited : Cmd Text Event → Bool
  | .set .. | .delDigest _ => false
  | .sleep | .awaitHeartbeat _ | .awaitFuture .. => true
  | c => c.onRedis

def Cmd.giveUp (c : Cmd Text Event) (w : World Text Event) : World Text Event :=
  match c with
  | .awaitFuture n _ => w.cancelFuture n
  | _ => w

/-- A command is cut short by a cancellation, or by a connection that fails. Either way Redis
may already have carried it out. -/
def abort (c : Cmd Text Event) (r : c.Answer) (w w' : World Text Event) : Prop :=
  ∃ e : Exc, r = .error e ∧
    (c.awaited = true ∧ e.cls = .cancelled ∨ c.onRedis = true ∧ e.cls = .other) ∧
    (w' = c.giveUp w ∨ ∃ a, exec c (.ok a) w w')

/-- What happens without any of the modelled coroutines. -/
inductive Tick where
  | expire (project : String)
  | elapse (project : String)
  | beat (token : String)
  | refresh (token : String) (held : Bool)
  | beatFails (token : String) (e : Exc)
  | threadStart (n : Nat)
  | threadPublish (n : Nat)
  | threadFails (n : Nat) (e : Exc)
  | threadEnd (n : Nat)
  | stop

/-- A heartbeat that waits for a refresh goes on, or raises `LockStolenError`. -/
def Heartbeat.answered (S : Setup Event) (hb : Heartbeat) (held : Bool) : HeartbeatState :=
  match hb.state, held with
  | .refreshing, true => .sleeping
  | .refreshing, false => .ended ⟨.lockStolen, "lock stolen for project " ++ S.repr hb.projectName⟩
  | s, _ => s

def channel (taskId : String) : String := "cio:events:" ++ taskId

def tick (S : Setup Event) (e : Tick) (w w' : World Text Event) : Prop :=
  match e with
  | .expire p => w.redis.locks p ≠ none ∧ w' = w.onRedis (·.setLock p none)
  | .elapse p => ∃ l, w.redis.locks p = some l ∧ 0 < l.ttl ∧
      w' = w.onRedis (·.setLock p (some { l with ttl := l.ttl - 1 }))
  | .beat τ => ∃ hb, w.heartbeats τ = some hb ∧ hb.state = .sleeping ∧
      w' = w.setHeartbeat τ { hb with state := .refreshing, inflight := true }
  | .refresh τ held => ∃ hb, w.heartbeats τ = some hb ∧ hb.inflight = true ∧
      held = w.redis.holds hb.projectName τ ∧
      w' = (w.onRedis (·.evalRefresh hb.projectName τ S.settings.lockTtl)).setHeartbeat τ
        { hb with state := hb.answered S held, inflight := false }
  | .beatFails τ e => ∃ hb, w.heartbeats τ = some hb ∧ hb.state = .refreshing ∧
      e.isException = true ∧ w' = w.setHeartbeat τ { hb with state := .ended e }
  | .threadStart n => ∃ th, w.threads[n]? = some th ∧ th.state = .queued ∧
      w' = w.setThread n { th with state := .running }
  | .threadPublish n => ∃ th ev rest data, w.threads[n]? = some th ∧ th.state = .running ∧
      th.remaining = ev :: rest ∧ S.encode ev = .ok data ∧
      w' = (w.onRedis (·.publish (channel th.taskId) data)).setThread n
        { th with remaining := rest }
  | .threadFails n e => ∃ th ev rest, w.threads[n]? = some th ∧ th.state = .running ∧
      th.remaining = ev :: rest ∧
      w' = w.setThread n { th with state := .done (.error e) }
  | .threadEnd n => ∃ th, w.threads[n]? = some th ∧ th.state = .running ∧ th.remaining = [] ∧
      w' = w.setThread n { th with state := .done th.ending }
  | .stop => w' = { w with running := false }

abbrev Py (Text Event S α : Type) : Type :=
  Async (Cmd Text Event) Cmd.Reply Exc S α

def ask (c : Cmd Text Event) : Py Text Event σ c.Reply := Async.call c

/-- `try: p except Exception as exc: h exc`. -/
def tryExcept (p : Py Text Event S α) (h : Exc → Py Text Event S α) : Py Text Event S α := do
  match ← Async.attempt p with
  | .ok a => return a
  | .error exc => if exc.isException then h exc else Async.raise exc

end Orchestrator
