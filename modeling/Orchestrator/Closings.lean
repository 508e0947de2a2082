import Orchestrator.Leftover

namespace Orchestrator
open Concurrency Async Progress
set_option autoImplicit true

/-- The exceptions after which `_run_locked` closes the stream of a task that is not finished. -/
def ExcClass.isHasty : ExcClass → Bool
  | .retriable | .cancelled => true
  | _ => false

/-- Whether an attempt has ended in such an exception, after one more command. -/
def hastens (hasty : Bool) : (c : Cmd Text Event) → c.Answer → Bool
  | .iterEvents .., .error e => e.cls.isHasty
  | .awaitFuture .., .error e => e.cls = .timeout || e.cls.isHasty
  | .set .., .error _ | .brpop, _ | .publish .., _ => false
  | _, _ => hasty

/-- The attempt of a process has raised a `RetriableError` or a `CancelledError`, and its stream has
not been closed since. A limit that has elapsed is a `CancelledError`. -/
def hasty : Monitor (Cmd Text Event) Cmd.Answer Bool where
  init := false
  cmd := hastens
  abort := hastens

/-- What the monitor `hasty` reads of a process. -/
def Progress.isHasty : Progress → Bool
  | .failed _ cls => cls.isHasty
  | .halting _ => true
  | _ => false

/-- The finished task whose stream is still to be closed. -/
def Progress.written : Progress → Option Task
  | .finishing t | .closing t => some t
  | _ => none

/-- The record that a step writes over. -/
def overwritten : SysLabel Text Event → Option String
  | .cmd _ (.set id _) _ | .abort _ (.set id _) _ => some id
  | _ => none

section
variable [TaskJson Text]

/-- The stored record is that of a success or of a failure. -/
def World.finished (w : World Text Event) (id : String) : Bool :=
  (w.redis.record id).any Task.isTerminal

/-- The record of a finished task is not written over by one of a task that is not. -/
def upholds : Filter Text Event := fun _ w l w' =>
  ∀ id ∈ overwritten l, w.finished id = true → w'.finished id = true

/-- A stream that is closed after anything but a `RetriableError` or a `CancelledError` is that of
a finished task. -/
def ClosedLate : List (SysLabel Text Event) → World Text Event → Prop
  | .cmd i (.publish ch _) _ :: tr, w | .abort i (.publish ch _) _ :: tr, w =>
    hasty.read i tr = false → ∃ id, ch = channel id ∧ w.finished id = true
  | _, _ => True

/-- A command that stores the record of a finished task. -/
def Finishes (t : Task) : (c : Cmd Text Event) → c.Answer → Prop
  | .set id x, .ok _ => id = t.taskId ∧ parse x = some t ∧ t.isTerminal = true
  | _, _ => False

structure Closings (tr : List (SysLabel Text Event)) (w : World Text Event) (ds : Nat → Progress) :
    Prop where
  follows : (hasty : Monitor (Cmd Text Event) Cmd.Answer _).Follows Progress.isHasty tr ds
  finished : ∀ i t, (ds i).written = some t → w.finished t.taskId = true
  late : ClosedLate tr w

def closings (Text : Type) [TaskJson Text] (S : Setup Event) :
    Assertion (orchestrator Text S spawn exit) Progress where
  ok := upholds
  inv := Closings
  guar _ _ _ := True

omit [TaskJson Text] in
theorem not_hasty_of_raises {c : Cmd Text Event} {e : Exc} (hw : c.awaited = false)
    (hf : ¬c.fails True e) (h : c.raises e) : e.cls.isHasty = false := by
  rw [other_of_raises hw hf h]
  rfl

theorem ExcClass.unexpected.not_hasty (hc : ExcClass.unexpected cls) : cls.isHasty = false := by
  cases cls with
  | retriable => exact absurd rfl hc.1
  | cancelled => exact absurd rfl hc.2.2.1
  | _ => rfl

theorem hasty_cutShort (t : Task) (e : Exc) :
    (cutShort t e).isHasty = (e.cls = .timeout || e.cls.isHasty) := by
  unfold cutShort
  split
  · rename_i he
    rw [he]
    rfl
  · rename_i he
    rw [decide_eq_false he, Bool.false_or]
    rfl

theorem hasty_unclear {t : Task} {e : Exc} (he : e.cls.isHasty = false) :
    (unclear t e).isHasty = false := by
  unfold unclear
  split
  · exact he
  · rfl

omit [TaskJson Text] in
theorem hastens_set {hasty : Bool} {id : String} {x : Text} {r : Except Exc Unit} {g : Progress}
    {f : Exc → Progress} (hg : g.isHasty = hasty)
    (hf : ∀ e, r = .error e → (f e).isHasty = false) :
    hastens hasty (.set id x : Cmd Text Event) r = (settle r g f).isHasty := by
  cases r with
  | ok a => exact hg.symm
  | error e => exact (hf e rfl).symm

theorem hasty_move {S : Setup Event} {c : Cmd Text Event} {r : c.Answer} (hm : Move S d c r d')
    (hr : ∀ e, r = .error e → c.raises e) : hastens d.isHasty c r = d'.isHasty := by
  have hfalse {d : Progress} (h : d.isHasty = false) : false = d.isHasty := h.symm
  cases hm with
  | background hc =>
    cases c with
    | iterEvents _ _ _ | awaitFuture _ _ | set _ _ | brpop | publish _ _ => cases hc
    | _ => rfl
  | store _ _ | acquire => exact hfalse (granted_eq rfl rfl rfl)
  | index => exact hfalse (settle_eq (entered_eq rfl rfl) fun _ => rfl)
  | register _ | hangUp => exact hfalse (settle_eq rfl fun _ => rfl)
  | mark _ _ _ | run _ _ | halt _ _ | retry _ _ _ _ => exact hastens_set rfl fun _ _ => rfl
  | reject _ _ | abandon _ _ _ =>
    exact hastens_set (finished_eq rfl rfl) fun _ _ => rfl
  | fail hc _ _ =>
    exact hastens_set ((finished_eq rfl rfl).trans hc.not_hasty.symm) fun _ _ => rfl
  | succeed _ _ =>
    exact hastens_set (finished_eq rfl rfl) fun e he =>
      not_hasty_of_raises (c := .set _ _) rfl not_false (hr e he)
  | clear =>
    rename_i t r
    cases r with
    | ok a => rfl
    | error e =>
      have he : e.cls.isHasty = false :=
        not_hasty_of_raises (c := .delDigest _) rfl not_false (hr e rfl)
      exact hfalse (hasty_unclear he)
  | start =>
    rename_i r
    cases r <;> rfl
  | wait =>
    rename_i r
    cases r with
    | ok a => rfl
    | error e => exact (hasty_cutShort _ e).symm
  | _ => rfl

theorem written_settle {t u : Task} {r : Except Exc Unit} {f : Exc → Progress}
    (hf : ∀ e, (f e).written = none) (h : (settle r (finished u) f).written = some t) :
    t = u ∧ r = .ok () := by
  cases r with
  | ok a =>
    have hu : (finished u).written = some u := finished_eq rfl rfl
    exact ⟨Option.some.inj (h.symm.trans hu), rfl⟩
  | error e => cases (hf e).symm.trans h

/-- A task is finished by the command that brings it before its close. -/
theorem Move.written {S : Setup Event} {c : Cmd Text Event} {r : c.Answer} (hm : Move S d c r d')
    (h : d'.written = some t) : d.written = some t ∨ Finishes t c r := by
  have hset {u : Task} {r : Except Exc Unit} {f : Exc → Progress}
      (hf : ∀ e, (f e).written = none) (hu : u.isTerminal = true)
      (h : (settle r (finished u) f).written = some t) :
      Finishes t (.set u.taskId (modelDumpJson u) : Cmd Text Event) r := by
    obtain ⟨rfl, rfl⟩ := written_settle hf h
    exact ⟨rfl, parse_dump t, hu⟩
  have hnone {P : Prop} {d : Progress} (hd : d.written = none) (h : d.written = some t) : P := by
    cases hd.symm.trans h
  cases hm with
  | background _ => exact .inl h
  | succeed _ hs | fail _ _ hs | reject _ hs | abandon _ _ hs =>
    exact .inr (hset (fun _ => rfl) (by rw [Task.isTerminal, hs]; rfl) h)
  | clear =>
    rename_i r
    cases r with
    | ok a => exact .inl h
    | error e => exact hnone (unclear_eq (fun _ => rfl) rfl) h
  | store _ _ | acquire => exact hnone (granted_eq rfl rfl rfl) h
  | index => exact hnone (settle_eq (entered_eq rfl rfl) fun _ => rfl) h
  | wait => exact hnone (settle_eq rfl fun _ => cutShort_eq fun _ => rfl) h
  | mark _ _ _ | register _ | run _ _ | start | halt _ _ | hangUp | retry _ _ _ _ =>
    exact hnone (settle_eq rfl fun _ => rfl) h
  | _ => exact hnone rfl h

section
variable {S : Setup Event} {i : Nat} {w w' : World Text Event} {l : SysLabel Text Event}
  {id : String} {tr : List (SysLabel Text Event)} {ds : Nat → Progress} {d : Progress}

theorem finished_congr (h : w'.redis.tasks.lookup id = w.redis.tasks.lookup id) :
    w'.finished id = w.finished id := by
  rw [World.finished, Redis.record, h]
  rfl

theorem finished_answer {c : Cmd Text Event} {r : c.Answer}
    (ha : (system Text S).Answer i c r w w' l) (hok : upholds tr w l w')
    (hf : w.finished id = true) : w'.finished id = true := by
  by_cases hc : ∃ y, c = .set id y
  · obtain ⟨y, rfl⟩ := hc
    cases ha with
    | cmd _ | abort _ => exact hok id rfl hf
  · cases hx : w.redis.tasks.lookup id with
    | none =>
      rw [World.finished, Redis.record, hx] at hf
      cases hf
    | some x => rwa [finished_congr ((lookup_answer ha (fun y he => hc ⟨y, he⟩) hx).trans hx.symm)]

theorem finished_tasks (h : w'.redis.tasks = w.redis.tasks) : w'.finished id = w.finished id :=
  finished_congr (by rw [h])

theorem finished_redis (h : w'.redis = w.redis) : w'.finished id = w.finished id :=
  finished_tasks (by rw [h])

/-- A task that is finished stays so. -/
theorem finished_step {b b' : SysConfig Text Event} (hs : (system Text S).Step b l b')
    (hok : upholds tr b.world l b'.world) (hf : b.world.finished id = true) :
    b'.world.finished id = true := by
  cases hs with
  | answer _ ha => exact finished_answer ha hok hf
  | spawn _ hq => rwa [finished_redis (redis_spawn hq)]
  | exit _ he => rwa [finished_redis (redis_exit he)]
  | env he => rwa [finished_tasks (tick_quiet he).tasks]
  | halt hh =>
    obtain rfl := hh
    exact hf

theorem finished_of_finishes {c : Cmd Text Event} {r : c.Answer}
    (ha : (system Text S).Answer i c r w w' l) (hc : Finishes t c r) :
    w'.finished t.taskId = true := by
  cases c with
  | set id x =>
    cases r with
    | ok a =>
      obtain ⟨rfl, hx, ht⟩ := hc
      rcases set_effect ha with rfl | ⟨⟨e, he⟩, _⟩
      · rw [World.finished, Redis.record, World.onRedis, Redis.set, AList.lookup_insert,
          Option.bind_some, hx]
        exact ht
      · cases he
    | error e => exact hc.elim
  | _ => exact absurd hc not_false

namespace Closings

/-- A stream is closed by one of the handlers, or after the last write. -/
theorem closedLate {c : Cmd Text Event} {r : c.Answer} (h : Closings tr w ds)
    (ha : (system Text S).Answer i c r w w' l) (hok : upholds tr w l w')
    (hm : Move S (ds i) c r d) : ClosedLate (l :: tr) w' := by
  have hlate (ch data : String) (hc : c = .publish ch data) (hi : hasty.read i tr = false) :
      ∃ id, ch = channel id ∧ w'.finished id = true := by
    subst hc
    rw [h.follows i] at hi
    generalize hd : ds i = d₀ at hm hi
    cases hm with
    | background hb => cases hb
    | hangUp | closeHalted => cases hi
    | close =>
      exact ⟨_, rfl, finished_answer ha hok (h.finished i _ (by rw [hd]; rfl))⟩
  cases ha with
  | cmd _ | abort _ =>
    cases c with
    | publish ch data => exact hlate ch data rfl
    | _ => trivial

theorem move {c : Cmd Text Event} {r : c.Answer} (h : Closings tr w ds)
    (ha : (system Text S).Answer i c r w w' l) (hok : upholds tr w l w')
    (hm : Move S (ds i) c r d) : Closings (l :: tr) w' (Function.update ds i d) where
  follows := by
    have hraises (e : Exc) (he : r = .error e) : c.raises e := by
      have ha : (orchestrator Text S spawn exit).Answer i c r w w' l := ha
      subst he
      exact raises_of_answer ha
    have hd := hasty_move hm hraises
    exact h.follows.answer ha (fun _ => hd) fun _ => hd
  finished j t hj := by
    by_cases hji : j = i
    · rw [hji, Function.update_self] at hj
      rcases hm.written hj with hw | hc
      · exact finished_answer ha hok (h.finished i t hw)
      · exact finished_of_finishes ha hc
    · rw [Function.update_of_ne hji] at hj
      exact finished_answer ha hok (h.finished j t hj)
  late := h.closedLate ha hok hm

/-- A process comes or goes. -/
theorem change (h : Closings tr w ds) (hw : w'.redis = w.redis) (hd : d.written = none)
    (hf : (hasty : Monitor (Cmd Text Event) Cmd.Answer _).Follows Progress.isHasty (l :: tr)
      (Function.update ds i d)) (hl : ClosedLate (l :: tr) w') :
    Closings (l :: tr) w' (Function.update ds i d) where
  follows := hf
  finished j t hj := by
    by_cases hji : j = i
    · rw [hji, Function.update_self, hd] at hj
      cases hj
    · rw [Function.update_of_ne hji] at hj
      rw [finished_redis hw]
      exact h.finished j t hj
  late := hl

end Closings

theorem written_entry (q : Kind) : q.entry.isHasty = false ∧ q.entry.written = none := by
  cases q <;> exact ⟨rfl, rfl⟩

theorem closings_tracked (w₀ : World Text Event) : Tracked (closings Text S) w₀ where
  start := ⟨fun _ => rfl, fun _ _ h => (nomatch h), trivial⟩
  move tr w ds i c r w' l d hi ha hok hm := ⟨trivial, hi.move ha hok hm⟩
  spawn tr w ds i q w' hi hd hs _ := by
    obtain ⟨hq, hw⟩ := written_entry q
    exact ⟨trivial, hi.change (redis_spawn hs) hw (hi.follows.spawn i q hq) trivial⟩
  exit tr w ds i q b w' o hi hd he _ := by
    have ho : (o.elim Progress.gone Kind.entry).isHasty = false ∧
        (o.elim Progress.gone Kind.entry).written = none := by
      rcases o with _ | q'
      · exact ⟨rfl, rfl⟩
      · exact written_entry q'
    exact ⟨trivial, hi.change (redis_exit he) ho.2 (hi.follows.exit i q b ho.1) trivial⟩
  env tr w ds e w' hi ht _ := by
    refine ⟨trivial, fun i => hi.follows i, fun i t h => ?_, trivial⟩
    rw [finished_tasks (tick_quiet ht).tasks]
    exact hi.finished i t h
  halt tr w ds w' _ _ _ := ⟨trivial, fun _ => rfl, fun _ _ h => (nomatch h), trivial⟩

/-- Six of the places that close a stream are the worker's. At the four that are not in the
handlers of `RetriableError` and `CancelledError`, the last record has been written. -/
theorem closedLate_of_run {w₀ : World Text Event} {s : SysConfig Text Event}
    (hr : Run (system Text S) upholds (.idle w₀) tr s) : ClosedLate tr s.world := by
  obtain ⟨ds, hi⟩ := (closings_tracked w₀).sound.inv hr
  exact hi.late

end

end

end Orchestrator
