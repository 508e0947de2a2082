import Orchestrator.System
import Orchestrator.Concurrency.Driver

namespace Orchestrator
open Concurrency Async
set_option autoImplicit true

/-- What a schedule says about the next reply: nothing, the exception to raise, the iterator
that the engine gives, or that the wait runs into its limit. -/
inductive Hint (Event : Type) where
  | auto
  | raises (e : Exc)
  | yields (it : Iter Event)
  | expires

def freshId (w : World Text Event) : String :=
  String.ofList (List.replicate (w.usedIds.length + 1) 'u')

/-- A computed reply to a call out of the repository. -/
def external (x : Hint Event) (w : World Text Event) (a : α) :
    Option (Except Exc α × World Text Event) :=
  match x with
  | .raises e => if e.isException then some (.error e, w) else none
  | _ => some (.ok a, w)

def answer (x : Hint Event) (c : Cmd Text Event) (w : World Text Event) :
    Option (c.Answer × World Text Event) :=
  match c with
  | .get id => some (.ok (w.redis.tasks.lookup id), w)
  | .setNx id t =>
    if id ∈ w.redis.tasks then some (.ok false, w)
    else some (.ok true, w.onRedis (·.set id t))
  | .set id t => some (.ok (), w.onRedis (·.set id t))
  | .sadd p id => some (.ok (), w.onRedis (·.sadd p id))
  | .smembers p => some (.ok (w.redis.projectTasks p), w)
  | .mget ids => some (.ok (ids.map w.redis.tasks.lookup), w)
  | .getDigest h => some (.ok (w.redis.digests h), w)
  | .setDigest h id => some (.ok (), w.onRedis (·.setDigest h (some id)))
  | .delDigest h => some (.ok (), w.onRedis (·.setDigest h none))
  | .lpush t => some (.ok (), w.onRedis (·.lpush t))
  | .brpop =>
    match w.redis.queue.getLast? with
    | none => some (.ok none, w)
    | some t => some (.ok (some t), w.onRedis fun q => { q with queue := q.queue.dropLast })
  | .scan => some (.ok [(0, w.redis.tasks.keys.map .task)], w)
  | .publish ch data => some (.ok (), w.onRedis (·.publish ch data))
  | .acquireLock p τ ttl =>
    if ttl = 0 then none
    else match w.redis.locks p with
      | some _ => some (.ok false, w)
      | none => some (.ok true, w.onRedis (·.setLock p (some ⟨τ, ttl⟩)))
  | .evalRelease p τ => some (.ok (), w.onRedis (·.evalRelease p τ))
  | .now => some (.ok 0, w)
  | .uuid4 =>
    if freshId w ∈ w.usedIds then none
    else some (.ok (freshId w), { w with usedIds := freshId w :: w.usedIds })
  | .sleep => some (.ok (), w)
  | .log _ => some (.ok (), w)
  | .createHeartbeat p τ => some (.ok (), w.setHeartbeat τ ⟨p, .sleeping, false⟩)
  | .cancelHeartbeat τ => some (.ok (), w.cancelHeartbeat τ)
  | .awaitHeartbeat τ =>
    match w.heartbeats τ with
    | some ⟨_, .ended e, _⟩ => some (.error e, w)
    | _ => none
  | .factoryGet .. => external x w ()
  | .projectExists _ => external x w false
  | .setProjectName _ => external x w ()
  | .checkpointExists _ => external x w false
  | .iterEvents .. =>
    match x with
    | .yields it => some (.ok it, w)
    | .raises e => if e.cls = .cancelled then none else some (.error e, w)
    | _ => some (.ok ⟨[], .ok ()⟩, w)
  | .runInExecutor id p it => some (.ok w.threads.length,
      { w with threads := w.threads ++ [⟨id, p, it.events, it.ending, .queued⟩] })
  | .awaitFuture n timeout =>
    match x with
    | .expires =>
      if 0 < timeout then some (.error ⟨.timeout, ""⟩, w.cancelFuture n) else none
    | _ =>
      match w.threads[n]? with
      | some ⟨_, _, _, _, .done o⟩ => some (o.mapError convertFutureExc, w)
      | _ => none

theorem external_exec {x : Hint Event} {w w' : World Text Event} {a : α} {r : Except Exc α}
    (h : external x w a = some (r, w')) : External r ∧ w' = w := by
  have hok : ∀ b : α, External (.ok b : Except Exc α) := fun b e he => nomatch he
  unfold external at h
  split at h
  · rename_i e
    split at h
    · rename_i he
      cases h
      refine ⟨fun e' he' => ?_, rfl⟩
      cases he'
      exact he
    · cases h
  · cases h
    exact ⟨hok a, rfl⟩

theorem answer_exec {x : Hint Event} {c : Cmd Text Event} {w w' : World Text Event}
    {r : c.Answer} (h : answer x c w = some (r, w')) : exec c r w w' := by
  cases c with
  | setNx id t =>
    simp only [answer] at h
    split at h <;> rename_i hm <;> cases h <;> simp only [exec, hm, ↓reduceIte, and_self]
  | smembers p =>
    cases h
    exact ⟨⟨_, rfl, .refl _⟩, rfl⟩
  | brpop =>
    simp only [answer] at h
    split at h <;> rename_i hq <;> cases h <;> simp only [exec, hq, and_self]
  | scan =>
    cases h
    exact ⟨⟨_, rfl, completeScan_keys _⟩, rfl⟩
  | acquireLock p τ ttl =>
    simp only [answer] at h
    split at h
    · cases h
    · rename_i httl
      have httl : 0 < ttl := Nat.pos_of_ne_zero httl
      split at h <;> rename_i hl <;> cases h <;> simp only [exec, hl, httl, and_self]
  | now =>
    cases h
    exact ⟨⟨_, rfl⟩, rfl⟩
  | uuid4 =>
    simp only [answer] at h
    split at h
    · cases h
    · rename_i hu
      cases h
      exact ⟨_, hu, rfl, rfl⟩
  | awaitHeartbeat τ =>
    simp only [answer] at h
    split at h
    · rename_i p e b hb
      cases h
      exact ⟨⟨_, e, hb, rfl, rfl⟩, rfl⟩
    · cases h
  | factoryGet _ _ => exact external_exec h
  | projectExists _ => exact external_exec h
  | setProjectName _ => exact external_exec h
  | checkpointExists _ => exact external_exec h
  | iterEvents _ _ _ =>
    simp only [answer] at h
    split at h
    · cases h
      exact ⟨fun e he => (nomatch he), rfl⟩
    · split at h
      · cases h
      · rename_i he
        cases h
        refine ⟨fun e' he' => ?_, rfl⟩
        cases he'
        exact he
    · cases h
      exact ⟨fun e he => (nomatch he), rfl⟩
  | awaitFuture n timeout =>
    simp only [answer] at h
    split at h
    · split at h
      · rename_i ht
        cases h
        exact .inr ⟨ht, ⟨_, rfl⟩, rfl⟩
      · cases h
    · split at h
      · rename_i o hth
        cases h
        exact .inl ⟨_, o, hth, rfl, rfl, rfl⟩
      · cases h
  | _ =>
    cases h
    exact ⟨rfl, rfl⟩

/-- A computed cancellation: the command is not carried out. -/
def cancel (c : Cmd Text Event) (w : World Text Event) :
    Option (c.Answer × World Text Event) :=
  if c.awaited then some (.error ⟨.cancelled, ""⟩, c.giveUp w) else none

theorem cancel_abort {c : Cmd Text Event} {w w' : World Text Event} {r : c.Answer}
    (h : cancel c w = some (r, w')) : abort c r w w' := by
  unfold cancel at h
  split at h
  · rename_i hc
    cases h
    exact ⟨_, rfl, .inl ⟨hc, rfl⟩, .inl rfl⟩
  · cases h

def nextTick (S : Setup Event) (e : Tick) (w : World Text Event) : Option (World Text Event) :=
  match e with
  | .expire p =>
    match w.redis.locks p with
    | some _ => some (w.onRedis (·.setLock p none))
    | none => none
  | .elapse p =>
    match w.redis.locks p with
    | some ⟨τ, n + 1⟩ => some (w.onRedis (·.setLock p (some ⟨τ, n⟩)))
    | _ => none
  | .beat τ =>
    match w.heartbeats τ with
    | some ⟨p, .sleeping, _⟩ => some (w.setHeartbeat τ ⟨p, .refreshing, true⟩)
    | _ => none
  | .refresh τ held =>
    match w.heartbeats τ with
    | some ⟨p, s, true⟩ =>
      if held = w.redis.holds p τ then
        some ((w.onRedis (·.evalRefresh p τ S.settings.lockTtl)).setHeartbeat τ
          ⟨p, (⟨p, s, true⟩ : Heartbeat).answered S held, false⟩)
      else none
    | _ => none
  | .beatFails τ e =>
    match w.heartbeats τ with
    | some ⟨p, .refreshing, b⟩ =>
      if e.isException then some (w.setHeartbeat τ ⟨p, .ended e, b⟩) else none
    | _ => none
  | .threadStart n =>
    match w.threads[n]? with
    | some ⟨id, p, evs, o, .queued⟩ => some (w.setThread n ⟨id, p, evs, o, .running⟩)
    | _ => none
  | .threadPublish n =>
    match w.threads[n]? with
    | some ⟨id, p, ev :: evs, o, .running⟩ =>
      match S.encode ev with
      | .ok data =>
        some ((w.onRedis (·.publish (channel id) data)).setThread n ⟨id, p, evs, o, .running⟩)
      | .error _ => none
    | _ => none
  | .threadFails n e =>
    match w.threads[n]? with
    | some ⟨id, p, ev :: evs, o, .running⟩ =>
      some (w.setThread n ⟨id, p, ev :: evs, o, .done (.error e)⟩)
    | _ => none
  | .threadEnd n =>
    match w.threads[n]? with
    | some ⟨id, p, [], o, .running⟩ => some (w.setThread n ⟨id, p, [], o, .done o⟩)
    | _ => none
  | .stop => some { w with running := false }

theorem nextTick_tick {S : Setup Event} {e : Tick} {w w' : World Text Event}
    (h : nextTick S e w = some w') : tick S e w w' := by
  cases e with
  | expire p =>
    simp only [nextTick] at h
    split at h
    · rename_i l hl
      cases h
      exact ⟨by simp only [hl, ne_eq, reduceCtorEq, not_false_eq_true], rfl⟩
    · cases h
  | elapse p =>
    simp only [nextTick] at h
    split at h
    · rename_i τ n hl
      cases h
      exact ⟨_, hl, Nat.succ_pos n, rfl⟩
    · cases h
  | beat τ =>
    simp only [nextTick] at h
    split at h
    · rename_i hb
      cases h
      exact ⟨_, hb, rfl, rfl⟩
    · cases h
  | refresh τ held =>
    simp only [nextTick] at h
    split at h
    · rename_i hb
      split at h
      · rename_i hh
        cases h
        exact ⟨_, hb, rfl, hh, rfl⟩
      · cases h
    · cases h
  | beatFails τ e =>
    simp only [nextTick] at h
    split at h
    · rename_i hb
      split at h
      · rename_i he
        cases h
        exact ⟨_, hb, rfl, he, rfl⟩
      · cases h
    · cases h
  | threadStart n =>
    simp only [nextTick] at h
    split at h
    · rename_i ht
      cases h
      exact ⟨_, ht, rfl, rfl⟩
    · cases h
  | threadPublish n =>
    simp only [nextTick] at h
    split at h
    · rename_i ht
      split at h
      · rename_i hd
        cases h
        exact ⟨_, _, _, _, ht, rfl, rfl, hd, rfl⟩
      · cases h
    · cases h
  | threadFails n e =>
    simp only [nextTick] at h
    split at h
    · rename_i ht
      cases h
      exact ⟨_, _, _, ht, rfl, rfl, rfl⟩
    · cases h
  | threadEnd n =>
    simp only [nextTick] at h
    split at h
    · rename_i ht
      cases h
      exact ⟨_, ht, rfl, rfl, rfl⟩
    · cases h
  | stop =>
    cases h
    exact rfl

def nextSpawn (q : Kind) (w : World Text Event) : Option (World Text Event) :=
  match q with
  | .recover =>
    if w.stage = .stopped then some { w with stage := .recovering, running := true } else none
  | _ => if w.stage = .serving then some w else none

def nextExit (q : Kind) (b : Except Exc Returned) (w : World Text Event) :
    Option (World Text Event × Option Kind) :=
  match q, b with
  | .recover, .ok _ => some ({ w with stage := .serving }, none)
  | .recover, .error _ => some ({ w with stage := .stopped }, none)
  | .worker, .ok _ => some (w, if w.running then some .worker else none)
  | .worker, .error _ => some (w, none)
  | .request _, _ => some (w, none)

theorem nextSpawn_spawn {q : Kind} {w w' : World Text Event} (h : nextSpawn q w = some w') :
    spawn q w w' := by
  cases q <;> simp only [nextSpawn] at h <;> split at h
  case recover.isTrue hw | worker.isTrue hw | request.isTrue hw =>
    cases h
    exact ⟨hw, rfl⟩
  all_goals cases h

theorem nextExit_exit {q : Kind} {b : Except Exc Returned} {w w' : World Text Event}
    {o : Option Kind} (h : nextExit q b w = some (w', o)) : exit q b w w' o := by
  cases q <;> cases b <;> cases h <;> exact ⟨rfl, rfl⟩

/-- The system run by a schedule. -/
def driver [TaskJson Text] (S : Setup Event) : Driver (system Text S) (Hint Event) where
  cmd x _ := answer x
  abort _ _ := cancel
  spawn := nextSpawn
  exit := nextExit
  env := nextTick S
  halt w := some { w with
    heartbeats := fun _ => none, threads := [], stage := .stopped, running := false }
  cmd_exec := answer_exec
  abort_abort := cancel_abort
  spawn_spawn := nextSpawn_spawn
  exit_exit := nextExit_exit
  env_env := nextTick_tick
  halt_halt := by
    intro w w' h
    cases h
    rfl

/-! A small deployment to run schedules on. Texts are tasks, and events are their own text. -/

instance : TaskJson Task where
  modelDumpJson := id
  modelValidateJson := .ok
  validate_dump _ := rfl

def demo : Setup String where
  settings := { lockTtl := 30, streamTimeout := 10, maxRetries := 1 }
  sha256 := id
  repr s := "'" ++ s ++ "'"
  reprFloat q := toString q.num ++ ".0"
  encode := .ok

def demoDriver : Driver (system Task demo) (Hint String) := driver demo

abbrev DemoRun (ok : Filter Task String) (tr : List (SysLabel Task String))
    (s : SysConfig Task String) : Prop :=
  Run (system Task demo) ok (.idle .init) tr s

def demoRequest : TaskCreateRequest where
  projectName := "p"
  requirement := "r"
  minLength := by decide
  maxLength := by decide

abbrev Schedule : Type := List (Choice (Hint String) Kind Tick)

/-- The next `n` commands of process `i`. -/
def go (i n : Nat) : Schedule := List.replicate n (.cmd i .auto)

/-- A start of the program with nothing to recover, in process 0. -/
def start : Schedule := [.spawn 0 .recover] ++ go 0 1 ++ [.exit 0]

/-- A request that creates a task, from start to end. -/
def create (i : Nat) : Schedule := [.spawn i (.request demoRequest)] ++ go i 9 ++ [.exit i]

/-- Two requests that both look before either saves, up to the saves. -/
def race : Schedule :=
  start ++ [.spawn 1 (.request demoRequest), .spawn 2 (.request demoRequest)] ++ go 1 5 ++ go 2 5

/-- A run to two queued tasks of one project. -/
def twoTasks : Schedule := race ++ go 1 4 ++ [.exit 1] ++ go 2 4 ++ [.exit 2]

/-- A turn of a worker up to the wait for the stream, which is thread `n`. The project is
unknown to the engine, and the stream gives nothing. -/
def turnToStream (i n : Nat) : Schedule :=
  go i 11 ++ [.env (.threadStart n), .env (.threadEnd n)]

/-- A turn whose stream ends with a `RetriableError`, up to the wait for the stream, which is
thread `n`. -/
def turnToError (i n : Nat) : Schedule :=
  go i 9 ++ [.cmd i (.yields ⟨[], .error ⟨.retriable, ""⟩⟩)] ++ go i 1 ++
    [.env (.threadStart n), .env (.threadEnd n)]

/-- The rest of a turn that goes well. -/
def turnFromStream (i : Nat) : Schedule := go i 8 ++ [.exit i]

/-- What the worker in process `i` has returned with. -/
def returning (i : Nat) (s : SysConfig Task String) : Option (Except Exc Returned) :=
  match s.pool i with
  | some (.worker, .ret b) => some b
  | _ => none

theorem pool_of_returning {i : Nat} {s : SysConfig Task String} {b : Except Exc Returned}
    (h : returning i s = some b) : s.pool i = some (.worker, .ret b) := by
  unfold returning at h
  split at h
  · rename_i hp
    cases h
    exact hp
  · cases h

theorem step_of_returning {i : Nat} {s : SysConfig Task String} {b : Except Exc Returned}
    (h : returning i s = some b) : ∃ s', (system Task demo).Step s (.exit i .worker b) s' ∧
      (b.toBool = false → s'.pool i = none) := by
  have hp := pool_of_returning h
  cases b with
  | ok r => exact ⟨_, .exit hp ⟨rfl, rfl⟩, nofun⟩
  | error e => exact ⟨_, .exit hp ⟨rfl, rfl⟩, fun _ => Function.update_self ..⟩

end Orchestrator
