import Mathlib.Data.Fintype.EquivFin
import Orchestrator.Recovery
import Orchestrator.Concurrency.Angelic

namespace Orchestrator
open Concurrency Async Relation
set_option autoImplicit true

/-- Tasks, queue, stage and heartbeats are as they were. -/
structure Undisturbed (w w' : World Text Event) : Prop extends SameTasks w w' where
  beats : w'.heartbeats = w.heartbeats

namespace World

/-- A call is handed to the executor. -/
def addThread (w : World Text Event) (th : Thread Event) : World Text Event :=
  { w with threads := w.threads ++ [th] }

theorem addThread_get (w : World Text Event) (th : Thread Event) :
    (w.addThread th).threads[w.threads.length]? = some th := List.getElem?_concat_length

theorem setThread_addThread (w : World Text Event) (th th' : Thread Event) :
    (w.addThread th).setThread w.threads.length th' = w.addThread th' := by
  simp only [addThread, setThread, List.set_append_right _ _ (Nat.le_refl _), Nat.sub_self,
    List.set_cons_zero]

end World

variable [TaskJson Text]

/-- The record of `t` is written, and no other. -/
structure Wrote (t : Task) (w w' : World Text Event) : Prop where
  record : w'.redis.record = Function.update w.redis.record t.taskId (some t)
  queue : w'.redis.queue = w.redis.queue
  stage : w'.stage = w.stage
  beats : w'.heartbeats = w.heartbeats

namespace Wrote
variable {u v w : World Text Event} {t t' : Task}

theorem kept (h : Wrote t u v) (h' : Undisturbed v w) : Wrote t u w where
  record := by rw [h'.record, h.record]
  queue := h'.queue.trans h.queue
  stage := h'.stage.trans h.stage
  beats := h'.beats.trans h.beats

theorem of_kept (h : Undisturbed u v) (h' : Wrote t v w) : Wrote t u w where
  record := by rw [h'.record, h.record]
  queue := h'.queue.trans h.queue
  stage := h'.stage.trans h.stage
  beats := h'.beats.trans h.beats

/-- The same record, written again. -/
theorem again (h : Wrote t u v) (h' : Wrote t' v w) (he : t'.taskId = t.taskId) :
    Wrote t' u w where
  record := by rw [h'.record, h.record, he, Function.update_idem]
  queue := h'.queue.trans h.queue
  stage := h'.stage.trans h.stage
  beats := h'.beats.trans h.beats

end Wrote

/-- An execution of the task has ended well. -/
structure Succeeded (id : String) (w w' : World Text Event) : Prop where
  record : ∃ t, t.status = .success ∧ w'.redis.record = Function.update w.redis.record id (some t)
  queue : w'.redis.queue = w.redis.queue
  stage : w'.stage = w.stage

/-- The task of this id has ended well. -/
def Redis.Success (r : Redis Text) (id : String) : Prop :=
  ∃ t, r.record id = some t ∧ t.status = .success

/-- No command is cut short, and the process lives. -/
def unbroken : Filter Text Event := fun _ _ l _ =>
  match l with
  | .abort .. | .halt => False
  | _ => True

namespace Completion
variable {S : Setup Event} {i : Nat} {w : World Text Event} {t : Task}
  {X : Exc → Task → World Text Event → Prop}

/-- What a function of process `i` can do alone, where the world obliges. -/
abbrev Obliged (S : Setup Event) (i : Nat) (p : Py Text Event σ α)
    (Q : α → σ → World Text Event → Prop) (X : Exc → σ → World Text Event → Prop) (s : σ)
    (w : World Text Event) : Prop :=
  Async.Can ((system Text S).amid i) p Q X s w

theorem returns {c : Cmd Text Event} {Q : c.Reply → σ → World Text Event → Prop}
    {X : Exc → σ → World Text Event → Prop} (a : c.Reply)
    {w' : World Text Event} (h : exec c (.ok a) w w') (hQ : Q a s w') :
    Obliged S i (ask c) Q X s w := Can.returns ⟨w, .refl, h⟩ hQ

theorem raises {c : Cmd Text Event} {Q : c.Reply → σ → World Text Event → Prop}
    {X : Exc → σ → World Text Event → Prop} (e : Exc)
    {w' : World Text Event} (h : exec c (.error e) w w') (hX : X e s w') :
    Obliged S i (ask c) Q X s w := Can.raises ⟨w, .refl, h⟩ hX

theorem can_transition {st : TaskStatus} {detail : String}
    {Q : Unit → Task → World Text Event → Prop} (hQ : Q () (t.transition 0 st detail) w) :
    Obliged S i (Worker.transition st detail) Q X t w := by
  apply Can.bind
  refine returns 0 ⟨⟨0, rfl⟩, rfl⟩ ?_
  exact Can.mutate _ hQ

theorem can_update {Q : Unit → Task → World Text Event → Prop}
    (hQ : ∀ w', Wrote t w w' → Q () t w') : Obliged S i (Worker.update S) Q X t w := by
  have hset : Wrote t w (w.onRedis (·.set t.taskId (modelDumpJson t))) :=
    ⟨Redis.record_set_dump .., rfl, rfl, rfl⟩
  apply Can.bind
  apply Can.object
  apply Can.bind
  refine returns _ ⟨rfl, rfl⟩ ?_
  split
  · refine returns _ ⟨rfl, rfl⟩ ?_
    exact hQ _ (hset.kept ⟨⟨rfl, rfl, rfl⟩, rfl⟩)
  · exact Can.pure _ (hQ _ hset)

theorem can_close {Q : Unit → Task → World Text Event → Prop}
    (hQ : ∀ w', Undisturbed w w' → Q () t w') :
    Obliged S i Worker.close Q X t w := by
  apply Can.bind
  apply Can.object
  refine returns _ ⟨rfl, rfl⟩ ?_
  exact hQ _ ⟨⟨rfl, rfl, rfl⟩, rfl⟩

/-- The engine knows a checkpoint of every project, and no project but for that. -/
theorem can_decide {Q : TaskMode → Task → World Text Event → Prop}
    (hQ : ∀ mode u, u.taskId = t.taskId → Q mode u w) :
    Obliged S i (Scheduler.decide S) Q X t w := by
  have hok {α : Type} (a : α) : External (.ok a : Except Exc α) := fun _ he => nomatch he
  have happly (mode : TaskMode) : Obliged S i (Scheduler.apply mode) Q X t w := by
    apply Can.bind
    refine returns 0 ⟨⟨0, rfl⟩, rfl⟩ ?_
    apply Can.bind
    exact Can.mutate _ (Can.pure _ (hQ mode _ rfl))
  apply Can.bind
  apply Can.object
  split
  · apply Can.bind
    apply Can.bind
    apply Can.attempt
    apply Can.bind
    refine returns () ⟨hok (), rfl⟩ ?_
    refine returns true ⟨hok true, rfl⟩ ?_
    exact Can.pure _ (happly .resume)
  · apply Can.bind
    apply Can.bind
    apply Can.attempt
    refine returns false ⟨hok false, rfl⟩ ?_
    exact Can.pure _ (happly .new)

/-- The thread runs while its worker waits. -/
theorem can_stream {mode : TaskMode} {Q : Unit → Task → World Text Event → Prop}
    (hQ : ∀ w', Undisturbed w w' → Q () t w') : Obliged S i (Worker.stream S mode) Q X t w := by
  apply Can.bind
  apply Can.object
  apply Can.bind
  refine returns ⟨[], .ok ()⟩ ⟨fun _ he => (nomatch he), rfl⟩ ?_
  apply Can.bind
  refine returns _ ⟨rfl, rfl⟩ ?_
  apply Can.bind
  apply Can.attempt
  have hstart : tick S (.threadStart w.threads.length)
      (w.addThread ⟨t.taskId, t.projectName, [], .ok (), .queued⟩)
      (w.addThread ⟨t.taskId, t.projectName, [], .ok (), .running⟩) :=
    ⟨_, World.addThread_get .., rfl, (World.setThread_addThread ..).symm⟩
  have hend : tick S (.threadEnd w.threads.length)
      (w.addThread ⟨t.taskId, t.projectName, [], .ok (), .running⟩)
      (w.addThread ⟨t.taskId, t.projectName, [], .ok (), .done (.ok ())⟩) :=
    ⟨_, World.addThread_get .., rfl, rfl, (World.setThread_addThread ..).symm⟩
  have hawait : exec (.awaitFuture w.threads.length S.settings.streamTimeout) (.ok ())
      (w.addThread ⟨t.taskId, t.projectName, [], .ok (), .done (.ok ())⟩)
      (w.addThread ⟨t.taskId, t.projectName, [], .ok (), .done (.ok ())⟩) :=
    .inl ⟨_, _, World.addThread_get .., rfl, rfl, rfl⟩
  have hrun : ReflTransGen (fun w w' => ∃ e, tick S e w w')
      (w.addThread ⟨t.taskId, t.projectName, [], .ok (), .queued⟩)
      (w.addThread ⟨t.taskId, t.projectName, [], .ok (), .done (.ok ())⟩) :=
    .tail (.single ⟨_, hstart⟩) ⟨_, hend⟩
  apply Can.returns ⟨_, hrun, hawait⟩
  exact Can.pure _ (hQ _ ⟨⟨rfl, rfl, rfl⟩, rfl⟩)

theorem can_attemptStream {mode : TaskMode} {Q : Unit → Task → World Text Event → Prop}
    (hQ : ∀ u w', u.taskId = t.taskId → u.status = .success → Wrote u w w' → Q () u w') :
    Obliged S i (Worker.attemptStream S mode) Q X t w := by
  apply Can.bind
  apply Can.attempt
  apply Can.bind
  apply can_stream
  intro w₁ h₁
  apply Can.bind
  apply can_transition
  apply can_update
  intro w₂ h₂
  apply can_close
  intro w₃ h₃
  exact hQ _ w₃ rfl rfl ((h₂.of_kept h₁).kept h₃)

theorem can_runLocked {Q : Unit → Task → World Text Event → Prop}
    (hQ : ∀ u w', u.taskId = t.taskId → u.status = .success → Wrote u w w' → Q () u w') :
    Obliged S i (Worker.runLocked S) Q X t w := by
  apply Can.bind
  apply Can.object
  apply Can.bind
  apply Can.attempt
  refine returns () ⟨fun _ he => (nomatch he), rfl⟩ ?_
  apply Can.bind
  apply Can.attempt
  apply can_decide
  intro mode u hu
  apply Can.bind
  apply can_transition
  apply Can.bind
  apply can_update
  intro w₁ h₁
  apply can_attemptStream
  intro v w₂ hv hs h₂
  exact hQ v w₂ (hv.trans hu) hs (h₁.again h₂ hv)

theorem can_guarded {Q : Unit → Task → World Text Event → Prop}
    (hQ : ∀ u w', u.taskId = t.taskId → u.status = .success → Wrote u w w' → Q () u w') :
    Obliged S i (Worker.guarded S) Q X t w := by
  apply Can.bind
  apply Can.attempt
  apply can_runLocked
  exact fun u w' hu hs hw => Can.pure _ (hQ u w' hu hs hw)

/-- The heartbeat sleeps, and is cancelled. -/
theorem can_cleanUp {p τ : String} {hb : Heartbeat} (hhb : w.heartbeats τ = some hb)
    (hs : hb.state = .sleeping) {Q : Unit → Task → World Text Event → Prop}
    (hQ : ∀ w', SameTasks w w' → Q () t w') : Obliged S i (Worker.cleanUp p τ) Q X t w := by
  have hcancel : (w.cancelHeartbeat τ).heartbeats τ =
      some { hb with state := .ended ⟨.cancelled, ""⟩ } := by
    obtain ⟨q, st, b⟩ := hb
    cases hs
    simp only [World.cancelHeartbeat, hhb, World.setHeartbeat, Function.update_self]
  have hsame := sameTasks_cancelHeartbeat w τ
  apply Can.bind
  refine returns () ⟨rfl, rfl⟩ ?_
  apply Can.bind
  apply Can.attempt
  refine raises _ ⟨⟨_, _, hcancel, rfl, rfl⟩, rfl⟩ ?_
  refine returns () ⟨rfl, rfl⟩ ?_
  apply hQ
  exact ⟨(Redis.evalRelease_tasks ..).trans hsame.tasks,
    (Redis.evalRelease_queue ..).trans hsame.queue, hsame.stage⟩

/-- A lock that is there expires before it is acquired. -/
theorem can_acquireLock {p τ : String} {ttl : Nat} {Q : Bool → Task → World Text Event → Prop}
    (httl : 0 < ttl) (hQ : ∀ w', SameTasks w w' → Q true t w') :
    Obliged S i (acquireLock p τ ttl) Q X t w := by
  have hacquire (w : World Text Event) (hl : w.redis.locks p = none) :
      exec (.acquireLock p τ ttl) (.ok true) w (w.onRedis (·.setLock p (some ⟨τ, ttl⟩))) := by
    simp only [exec, hl, httl, and_self]
  cases hl : w.redis.locks p with
  | none => exact returns true (hacquire w hl) (hQ _ ⟨rfl, rfl, rfl⟩)
  | some lk =>
    have hexpire : ReflTransGen (fun w w' => ∃ e, tick S e w w') w
        (w.onRedis (·.setLock p none)) :=
      .single ⟨.expire p, by rw [hl]; exact Option.some_ne_none lk, rfl⟩
    have hfree : (w.onRedis (·.setLock p none)).redis.locks p = none :=
      Function.update_self ..
    apply Can.returns ⟨_, hexpire, hacquire _ hfree⟩
    exact hQ _ ⟨rfl, rfl, rfl⟩

theorem can_execute {Q : Unit → Task → World Text Event → Prop}
    (httl : 0 < S.settings.lockTtl) (hQ : ∀ u w', Succeeded t.taskId w w' → Q () u w') :
    Obliged S i (Worker.execute S) Q X t w := by
  obtain ⟨τ, hτ⟩ := Infinite.exists_notMem_finset w.usedIds.toFinset
  rw [List.mem_toFinset] at hτ
  apply Can.bind
  apply Can.object
  apply Can.bind
  refine returns τ ⟨τ, hτ, rfl, rfl⟩ ?_
  apply Can.bind
  apply can_acquireLock httl
  intro w₁ h₁
  simp only [↓reduceIte]
  apply Can.bind
  refine returns () ⟨rfl, rfl⟩ ?_
  apply Can.ensure
  apply can_guarded
  intro u w₂ hu hs h₂
  have hbeat : w₂.heartbeats τ = some ⟨t.projectName, .sleeping, false⟩ := by
    rw [h₂.beats]
    exact Function.update_self ..
  apply can_cleanUp hbeat rfl
  intro w₃ h₃
  refine hQ u w₃ ⟨⟨u, hs, ?_⟩, ?_, ?_⟩
  · rw [h₃.record, h₂.record, hu]
    have : (w₁.setHeartbeat τ ⟨t.projectName, .sleeping, false⟩).redis.record = w.redis.record :=
      h₁.record
    rw [this]
  · exact h₃.queue.trans (h₂.queue.trans h₁.queue)
  · exact h₃.stage.trans (h₂.stage.trans h₁.stage)

/-- A turn has taken the oldest text of the queue. -/
structure Turned (x : Text) (w w' : World Text Event) : Prop where
  queue : w'.redis.queue = w.redis.queue.dropLast
  stage : w'.stage = w.stage
  kept : ∀ id, w'.redis.record id = w.redis.record id ∨ w'.redis.Success id
  done : ∀ t, parse x = some t → w'.redis.Success t.taskId

theorem can_turn {x : Text} (httl : 0 < S.settings.lockTtl)
    (hx : w.redis.queue.getLast? = some x) :
    ((system Text S).body .worker).Can ((system Text S).amid i) w fun _ => Turned x w := by
  have hpop : exec .brpop (.ok (some x)) w
      (w.onRedis fun r => { r with queue := r.queue.dropLast }) := by
    simp only [exec, hx, and_self]
  apply Can.start
  apply Can.bind
  apply Can.bind
  apply Can.bind
  refine returns (some x) hpop ?_
  apply Can.pure
  cases hp : parse x with
  | none =>
    apply Can.pure
    refine Can.pure _ ⟨rfl, rfl, fun _ => .inl rfl, fun t ht => ?_⟩
    rw [hp] at ht
    cases ht
  | some t =>
    apply Can.on t
    apply can_execute httl
    rintro u w' ⟨⟨v, hv, hrec⟩, hq, hst⟩
    have hself : w'.redis.Success t.taskId := ⟨v, by rw [hrec, Function.update_self], hv⟩
    refine Can.pure _ ⟨hq, hst, fun id => ?_, fun t' ht' => ?_⟩
    · by_cases hid : id = t.taskId
      · exact .inr (hid ▸ hself)
      · left
        rw [hrec, Function.update_of_ne hid]
        rfl
    · rw [hp] at ht'
      cases ht'
      exact hself

/-- The queue is empty, and all that was in it has ended well. -/
structure Drained (w w' : World Text Event) : Prop where
  queue : w'.redis.queue = []
  kept : ∀ id, w'.redis.record id = w.redis.record id ∨ w'.redis.Success id
  done : ∀ x ∈ w.redis.queue, ∀ t, parse x = some t → w'.redis.Success t.taskId

theorem Turned.drained {x : Text} {u v w : World Text Event} (hx : u.redis.queue.getLast? = some x)
    (h : Turned x u v) (h' : Drained v w) : Drained u w where
  queue := h'.queue
  kept id := by
    rcases h'.kept id with he | hs
    · rcases h.kept id with he' | ⟨t, ht, hs⟩
      · exact .inl (he.trans he')
      · exact .inr ⟨t, he.trans ht, hs⟩
    · exact .inr hs
  done y hy t ht := by
    rw [← List.dropLast_append_getLast? x hx] at hy
    rcases List.mem_append.1 hy with hy | hy
    · exact h'.done y (h.queue ▸ hy) t ht
    · obtain rfl := List.mem_singleton.1 hy
      obtain ⟨t', ht', hs⟩ := h.done t ht
      rcases h'.kept t.taskId with he | hs'
      · exact ⟨t', he.trans ht', hs⟩
      · exact hs'

section
variable {tr tr' : List (SysLabel Text Event)} {s : SysConfig Text Event}
  {pool : Nat → Option (Kind × Coro (Cmd Text Event) Cmd.Answer (Except Exc Returned))}

/-- Process 0 is a worker before its turn, or free. -/
def Fresh (S : Setup Event)
    (pool : Nat → Option (Kind × Coro (Cmd Text Event) Cmd.Answer (Except Exc Returned))) : Prop :=
  ∀ e ∈ pool 0, e = (.worker, (system Text S).body .worker)

/-- A turn of process 0, from the start to the end. -/
theorem turn_run {x : Text} (httl : 0 < S.settings.lockTtl)
    (hx : w.redis.queue.getLast? = some x) (hw : w.stage = .serving) (hp : Fresh S pool)
    (hr : Run.After (system Text S) unbroken tr s tr' ⟨w, pool⟩) :
    ∃ tr'' w' pool', Run.After (system Text S) unbroken tr s tr'' ⟨w', pool'⟩ ∧ Turned x w w' ∧
      Fresh S pool' := by
  have hstart : ∃ tr₁ pool₁, Run.After (system Text S) unbroken tr s tr₁ ⟨w, pool₁⟩ ∧
      pool₁ 0 = some (.worker, (system Text S).body .worker) := by
    cases h : pool 0 with
    | none =>
      have hspawn : (system Text S).spawn .worker w w := show spawn .worker w w from ⟨hw, rfl⟩
      exact ⟨_, _, .cons hr (.spawn h hspawn) trivial, Function.update_self ..⟩
    | some e => exact ⟨tr', pool, hr, by rw [h, hp e h]⟩
  obtain ⟨tr₁, pool₁, hr₁, h₁⟩ := hstart
  obtain ⟨tr₂, w₂, b, hr₂, ht⟩ := hr₁.can (fun _ _ _ _ _ _ => trivial) (fun _ _ _ _ => trivial) h₁
    (can_turn httl hx)
  have hexit : ∃ o : Option Kind, exit .worker b w₂ w₂ o ∧ ∀ q ∈ o, q = .worker := by
    cases b with
    | ok r =>
      refine ⟨_, ⟨rfl, rfl⟩, fun q hq => ?_⟩
      split at hq
      · exact (Option.some.inj hq).symm
      · cases hq
    | error e => exact ⟨none, ⟨rfl, rfl⟩, fun _ hq => nomatch hq⟩
  obtain ⟨o, hx, ho⟩ := hexit
  refine ⟨_, w₂, _, .cons hr₂ (.exit (Function.update_self ..) hx) trivial, ht, fun e he => ?_⟩
  rw [Function.update_self] at he
  obtain ⟨q, hq, rfl⟩ := Option.map_eq_some_iff.1 he
  rw [ho q hq]

theorem drain_run {n : Nat} (httl : 0 < S.settings.lockTtl) (hn : w.redis.queue.length = n)
    (hw : w.stage = .serving) (hp : Fresh S pool)
    (hr : Run.After (system Text S) unbroken tr s tr' ⟨w, pool⟩) :
    ∃ tr'' s', Run.After (system Text S) unbroken tr s tr'' s' ∧ Drained w s'.world := by
  induction n generalizing w tr' pool with
  | zero =>
    have hq := List.eq_nil_of_length_eq_zero hn
    refine ⟨tr', _, hr, hq, fun _ => .inl rfl, fun x hx => ?_⟩
    rw [hq] at hx
    cases hx
  | succ n ih =>
    have hne : w.redis.queue ≠ [] := List.ne_nil_of_length_eq_add_one hn
    have hx := List.getLast?_eq_some_getLast hne
    obtain ⟨tr₁, w₁, pool₁, hr₁, ht, hp₁⟩ := turn_run httl hx hw hp hr
    have hlen : w₁.redis.queue.length = n := by
      rw [ht.queue, List.length_dropLast, hn, Nat.add_sub_cancel]
    obtain ⟨tr₂, s', hr₂, hd⟩ := ih hlen (ht.stage.trans hw) hp₁ hr₁
    exact ⟨tr₂, s', hr₂, ht.drained hx hd⟩

/-- A start of the program, up to its last recovered task. -/
theorem recover_run (hw : w.stage = .stopped) (hk : w.redis.WellKeyed)
    (hr : Run.After (system Text S) unbroken tr s tr' (.idle w)) :
    ∃ tr'' w' us ids, Run.After (system Text S) unbroken tr s tr'' (.idle w') ∧
      w'.stage = .serving ∧ Swept ids w.redis w'.redis us ∧
        ∀ id ∈ w.redis.tasks.keys, id ∈ ids := by
  have hspawn : (system Text S).spawn .recover w
      { w with stage := .recovering, running := true } :=
    show spawn .recover w { w with stage := .recovering, running := true } from ⟨hw, rfl⟩
  obtain ⟨n, w₁, hrec⟩ := exists_recovers (S := S)
    (w := { w with stage := .recovering, running := true }) (completeScan_keys w.redis)
  obtain ⟨us, hs, hc, -⟩ := hrec.swept hk
  have hbody : ((system Text S).body .recover).Can ((system Text S).amid 0)
      { w with stage := .recovering, running := true }
      fun b w' => b = .ok (.recovered n) ∧ w' = w₁ := by
    apply Can.start
    apply Can.bind
    apply Coro.can_iff.2
    exact ⟨_, _, hrec.mono fun _ _ _ _ h => Machine.amid_of_exec h.1, rfl, rfl⟩
  obtain ⟨tr₁, w₂, b, hr₁, rfl, rfl⟩ := (hr.cons (.spawn rfl hspawn) trivial).can
    (fun _ _ _ _ _ _ => trivial) (fun _ _ _ _ => trivial) (Function.update_self ..) hbody
  have hexit : exit .recover (.ok (.recovered n)) w₂ { w₂ with stage := .serving } none :=
    ⟨rfl, rfl⟩
  have hr₂ := hr₁.cons (.exit (Function.update_self ..) hexit) trivial
  have hpool : Function.update (Config.idle w : SysConfig Text Event).pool 0 none =
      (Config.idle w : SysConfig Text Event).pool := Function.update_eq_self 0 _
  simp only [Function.update_idem, Option.map_none, hpool] at hr₂
  exact ⟨_, { w₂ with stage := .serving }, us, _, hr₂, rfl, hs, hc⟩

end

end Completion

/-- Nothing is left to do, and what was left to do is a success. -/
structure Concluded (r r' : Redis Text) : Prop where
  queue : r'.queue = []
  terminal : ∀ id t, r'.record id = some t → t.isTerminal = true
  success : ∀ id, r.isLive id = true → r'.Success id

theorem Swept.concluded {ids : List String} {r : Redis Text} {us : List Task}
    {w w' : World Text Event} (h : Swept ids r w.redis us) (hc : ∀ id ∈ r.tasks.keys, id ∈ ids)
    (hd : Completion.Drained w w') : Concluded r w'.redis := by
  have hlive (id : String) (hl : r.isLive id = true) : w'.redis.Success id := by
    obtain ⟨t, ht, _⟩ := isLive_iff.1 hl
    have hid : id ∈ us.map Task.taskId := by
      rw [h.order, List.mem_reverse]
      exact List.mem_filter.2 ⟨hc id (Redis.mem_keys_of_record ht), hl⟩
    obtain ⟨u, hu, rfl⟩ := List.mem_map.1 hid
    apply hd.done (modelDumpJson u) _ u (parse_dump u)
    rw [h.queue]
    exact List.mem_append_left _ (List.mem_map_of_mem hu)
  refine ⟨hd.queue, fun id t ht => ?_, hlive⟩
  have hsuccess (hs : w'.redis.Success id) : t.isTerminal = true := by
    obtain ⟨u, hu, hs⟩ := hs
    obtain rfl := Option.some.inj (ht.symm.trans hu)
    rw [Task.isTerminal, hs]
    rfl
  rcases hd.kept id with he | hs
  · by_contra hterm
    have hl : w.redis.isLive id = true :=
      isLive_iff.2 ⟨t, he.symm.trans ht, Bool.eq_false_iff.2 hterm⟩
    rw [h.isLive] at hl
    exact hterm (hsuccess (hlive id hl))
  · exact hsuccess hs

/-- There is no dead end: whatever has happened so far, the program can be started anew, and in a
world that obliges it finishes all that is left to do. -/
theorem completion_law {S : Setup Event} {tr : List (SysLabel Text Event)}
    {s : SysConfig Text Event} (httl : 0 < S.settings.lockTtl)
    (hr : Run (system Text S) anyway (.idle .init) tr s) :
    ∃ s₀ tr' s', (system Text S).Step s .halt s₀ ∧
      Run.After (system Text S) unbroken (.halt :: tr) s₀ tr' s' ∧
      Concluded s.world.redis s'.world.redis := by
  obtain ⟨w₀, hhalt⟩ : ∃ w₀, (system Text S).halt s.world w₀ := ⟨_, rfl⟩
  have hstop : w₀.stage = .stopped := by rw [show w₀ = _ from hhalt]
  have hredis : w₀.redis = s.world.redis := by rw [show w₀ = _ from hhalt]
  have hidle : Run.After (system Text S) unbroken (.halt :: tr) (.idle w₀) (.halt :: tr)
      (.idle w₀) := .refl
  obtain ⟨tr₁, w₁, us, ids, hr₁, hstage, hs, hc⟩ :=
    Completion.recover_run hstop (hredis ▸ wellKeyed_of_run hr) hidle
  have hfresh : Completion.Fresh S (Config.idle w₁ : SysConfig Text Event).pool :=
    fun _ he => nomatch he
  obtain ⟨tr₂, s', hr₂, hd⟩ := Completion.drain_run httl rfl hstage hfresh hr₁
  rw [hredis] at hs hc
  exact ⟨_, tr₂, s', .halt hhalt, hr₂, hs.concluded hc hd⟩

/-- A stop in the midst of a stream. -/
theorem completion_law_stopped : ∃ tr s, DemoRun anyway tr s ∧ s.world.redis.live = ["u"] ∧
    ∃ s₀ tr' s', (system Task demo).Step s .halt s₀ ∧
      Run.After (system Task demo) unbroken (.halt :: tr) s₀ tr' s' ∧
      Concluded s.world.redis s'.world.redis := by
  obtain ⟨tr, s, hr, ho⟩ := demoDriver.drive_observe anyway (.idle .init) stoppedInStream
    (fun o => some o.2.world.redis.live) (show _ = some ["u"] by decide)
  exact ⟨tr, s, hr, Option.some.inj ho, completion_law (by decide) hr⟩

end Orchestrator
