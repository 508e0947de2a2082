import Orchestrator.Footprint
import Orchestrator.Frame

namespace Orchestrator
open Concurrency Async
set_option autoImplicit true

/-- The record keeps its identity and its number of retries. -/
def Task.Alike (u t : Task) : Prop := u.SameTask t ∧ u.retryCount = t.retryCount

theorem Task.Alike.refl (t : Task) : t.Alike t := ⟨.refl t, rfl⟩

theorem Task.Alike.trans (h : Task.Alike u t) (h' : Task.Alike t v) : u.Alike v :=
  ⟨h.1.trans h'.1, h.2.trans h'.2⟩

theorem Task.alike_transition (t : Task) (now : Nat) (st : TaskStatus) (detail : String) :
    (t.transition now st detail).Alike t := ⟨sameTask_transition t now st detail, rfl⟩

/-- How far a process is. A recovery is `scanning`, has `read` a task that is not finished, or has
`marked` it. A worker or a request is `idle` or has a task in hand: it is `stored` before it is in
the index of its project, and `indexed` before its digest is there; a finished one is `finishing`
until its digest is gone, and `closing` until its stream is closed; `halting` is the same for one
that a cancellation has interrupted. -/
inductive Progress where
  | gone
  | scanning
  | read (t : Task)
  | marked (t : Task)
  | idle
  | stored (t : Task)
  | indexed (t : Task)
  | queueing (t : Task)
  | taken (t : Task)
  | locked (t : Task)
  | running (t : Task)
  | started (t : Task)
  | streaming (t : Task) (n : Nat)
  | streamed (t : Task)
  | failed (t : Task) (cls : ExcClass)
  | retrying (t : Task)
  | finishing (t : Task)
  | closing (t : Task)
  | halting (t : Task)

namespace Progress

/-- What comes after a command that returns, or raises. -/
def settle (r : Except Exc α) (d : Progress) (f : Exc → Progress) : Progress :=
  match r with
  | .ok _ => d
  | .error e => f e

/-- What comes after a command that says whether it succeeded. -/
def granted (r : Except Exc Bool) (d d' : Progress) : Progress :=
  match r with
  | .ok b => if b then d else d'
  | .error _ => .idle

/-- What comes after a task is entered into the index of its project. -/
def entered (t : Task) : Progress := if t.requirement = "" then .queueing t else .indexed t

/-- What comes after the record of a finished task is written. -/
def finished (t : Task) : Progress := if t.requirement = "" then .closing t else .finishing t

/-- A success whose digest cannot be cleared counts as a failed stream. -/
def unclear (t : Task) (e : Exc) : Progress :=
  if t.status = .success then .failed t e.cls else .idle

/-- `_stream` makes a cancellation of a timeout. -/
def cutShort (t : Task) (e : Exc) : Progress :=
  if e.cls = .timeout then .failed t .cancelled else .failed t e.cls

/-- The task that the process has in hand. -/
def task : Progress → Option Task
  | .gone | .scanning | .idle => Option.none
  | .read t | .marked t | .stored t | .indexed t | .queueing t | .taken t | .locked t | .running t
  | .started t | .streaming t _ | .streamed t | .failed t _ | .retrying t | .finishing t
  | .closing t | .halting t => some t

theorem task_unclear {t u : Task} {e : Exc} (h : (unclear t e).task = some u) : t = u := by
  unfold unclear at h
  split at h
  · exact Option.some.inj h
  · cases h

theorem task_settle {u v : Task} {r : Except Exc Unit} {g : Progress} {f : Exc → Progress}
    (hg : g.task = some u) (hf : ∀ e, (f e).task = none ∨ (f e).task = some u)
    (hd : (settle r g f).task = some v) : v = u := by
  cases r with
  | ok a => exact Option.some.inj (hd.symm.trans hg)
  | error e =>
    rcases hf e with he | he
    · exact absurd (hd.symm.trans he) (Option.some_ne_none v)
    · exact Option.some.inj (hd.symm.trans he)

/-! A function of the progress that does not tell the outcomes of a command apart. -/

section
variable {p : Progress → β} {b : β}

theorem settle_eq {r : Except Exc α} {g : Progress} {f : Exc → Progress} (hg : p g = b)
    (hf : ∀ e, p (f e) = b) : p (settle r g f) = b := by
  cases r with
  | ok a => exact hg
  | error e => exact hf e

theorem granted_eq {r : Except Exc Bool} {d d' : Progress} (hd : p d = b) (hd' : p d' = b)
    (hi : p .idle = b) : p (granted r d d') = b := by
  rcases r with e | _ | _
  · exact hi
  · exact hd'
  · exact hd

theorem settle_some {p : Progress → Option β} {r : Except Exc α} {g : Progress}
    {f : Exc → Progress} (h : p (settle r g f) = some b) :
    p g = some b ∨ ∃ e, p (f e) = some b := by
  cases r with
  | ok a => exact .inl h
  | error e => exact .inr ⟨e, h⟩

theorem granted_some {p : Progress → Option β} {r : Except Exc Bool} {d d' : Progress}
    (hi : p .idle = Option.none) (h : p (granted r d d') = some b) :
    p d = some b ∨ p d' = some b := by
  rcases r with e | _ | _
  · cases hi.symm.trans h
  · exact .inr h
  · exact .inl h

theorem finished_eq {t : Task} (hf : p (.finishing t) = b) (hc : p (.closing t) = b) :
    p (finished t) = b := by
  unfold finished
  split
  · exact hc
  · exact hf

theorem entered_eq {t : Task} (hi : p (.indexed t) = b) (hq : p (.queueing t) = b) :
    p (entered t) = b := by
  unfold entered
  split
  · exact hq
  · exact hi

theorem cutShort_eq {t : Task} {e : Exc} (hf : ∀ cls, p (.failed t cls) = b) :
    p (cutShort t e) = b := by
  unfold cutShort
  split <;> exact hf _

theorem unclear_eq {t : Task} {e : Exc} (hf : ∀ cls, p (.failed t cls) = b) (hi : p .idle = b) :
    p (unclear t e) = b := by
  unfold unclear
  split
  · exact hf _
  · exact hi

end

end Progress

open Progress

/-- The commands that leave the task in hand where it is. -/
def Cmd.background : Cmd Text Event → Bool
  | .setNx .. | .sadd .. | .setDigest .. | .set .. | .delDigest _ | .lpush _ | .brpop | .publish ..
  | .acquireLock .. | .iterEvents .. | .runInExecutor .. | .awaitFuture ..
  | .log (.lockStolen ..) => false
  | _ => true

theorem quiet_of_background {c : Cmd Text Event} (hc : c.background = true) : c.quiet = true := by
  cases c with
  | setNx _ _ | set _ _ | lpush _ | brpop => cases hc
  | _ => rfl

/-- The classes of an `Exception` that `_run_locked` has no handler of their own for, `FatalError`
included: all of them end in the same way. -/
def ExcClass.unexpected (c : ExcClass) : Prop :=
  c ≠ .retriable ∧ c ≠ .lockStolen ∧ c ≠ .cancelled ∧ c ≠ .base

section
variable [TaskJson Text]

/-- One command of a process, with its reply. Each constructor is a place of the source that
sends the command. -/
inductive Move (S : Setup Event) :
    Progress → (c : Cmd Text Event) → c.Answer → Progress → Prop where
  | background (hc : c.background = true) : Move S d c r d
  | read {id : String} (hx : parse x = some t) (ht : t.isTerminal = false) :
      Move S .scanning (.get id) (.ok (some x)) (.read t)
  | mark (ht : t.status = .running) (hu : u.Alike t) (hs : u.status = .interrupted) :
      Move S (.read t) (.set u.taskId (modelDumpJson u)) r
        (settle r (.marked u) fun _ => .scanning)
  | requeue (ht : t.status ≠ .running) : Move S (.read t) (.lpush (modelDumpJson t)) r .scanning
  | requeueMarked : Move S (.marked t) (.lpush (modelDumpJson t)) r .scanning
  | store (hs : t.status = .pending) (hn : t.retryCount = 0) :
      Move S .idle (.setNx t.taskId (modelDumpJson t)) r (granted r (.stored t) .idle)
  | index : Move S (.stored t) (.sadd t.projectName t.taskId) r
      (settle r (entered t) fun _ => .idle)
  | register (hr : t.requirement ≠ "") : Move S (.indexed t)
      (.setDigest (digestKey S t.projectName t.requirement) t.taskId) r
      (settle r (.queueing t) fun _ => .idle)
  | queue : Move S (.queueing t) (.lpush (modelDumpJson t)) r .idle
  | pop (hx : parse x = some t) : Move S .idle .brpop (.ok (some x)) (.taken t)
  | popNothing (hr : ∀ x, r = .ok (some x) → parse x = none) : Move S .idle .brpop r .idle
  | acquire : Move S (.taken t) (.acquireLock t.projectName τ S.settings.lockTtl) r
      (granted r (.locked t) (.queueing t))
  | run (hu : u.Alike t) (hs : u.status = .running) :
      Move S (.locked t) (.set u.taskId (modelDumpJson u)) r (settle r (.running u) fun _ => .idle)
  | reject (hu : u.Alike t) (hs : u.status = .failed) :
      Move S (.locked t) (.set u.taskId (modelDumpJson u)) r (settle r (finished u) fun _ => .idle)
  | start : Move S (.running t) (.iterEvents mode t.projectName t.requirement) r
      (settle r (.started t) fun e => .failed t e.cls)
  | launch : Move S (.started t) (.runInExecutor t.taskId t.projectName it) (.ok n)
      (.streaming t n)
  | wait : Move S (.streaming t n) (.awaitFuture n timeout) r
      (settle r (.streamed t) (cutShort t))
  | succeed (hu : u.Alike t) (hs : u.status = .success) :
      Move S (.streamed t) (.set u.taskId (modelDumpJson u)) r
        (settle r (finished u) fun e => .failed u e.cls)
  | fail (he : cls.unexpected) (hu : u.Alike t) (hs : u.status = .failed) :
      Move S (.failed t cls) (.set u.taskId (modelDumpJson u)) r
        (settle r (finished u) fun _ => .idle)
  | halt (hu : u.Alike t) (hs : u.status = .interrupted) :
      Move S (.failed t .cancelled) (.set u.taskId (modelDumpJson u)) r
        (settle r (.halting u) fun _ => .idle)
  | hangUp : Move S (.failed t .retriable) (.publish (channel t.taskId) doneMessage) r
      (settle r (.retrying t) fun _ => .idle)
  | stolen : Move S (.failed t .lockStolen) (.log (.lockStolen t.projectName t.taskId)) (.ok ())
      (.retrying t)
  | leave : Move S (.failed t .base) (.cancelHeartbeat τ) r .idle
  | retry (ht : (t.retryCount : Int) < S.settings.maxRetries) (hu : u.SameTask t)
      (hn : u.retryCount = t.retryCount + 1) (hs : u.status = .interrupted) :
      Move S (.retrying t) (.set u.taskId (modelDumpJson u)) r
        (settle r (.queueing u) fun _ => .idle)
  | abandon (ht : ¬(t.retryCount : Int) < S.settings.maxRetries) (hu : u.Alike t)
      (hs : u.status = .failed) :
      Move S (.retrying t) (.set u.taskId (modelDumpJson u)) r
        (settle r (finished u) fun _ => .idle)
  | clear : Move S (.finishing t) (.delDigest (digestKey S t.projectName t.requirement)) r
      (settle r (.closing t) (unclear t))
  | close : Move S (.closing t) (.publish (channel t.taskId) doneMessage) r .idle
  | closeHalted : Move S (.halting t) (.publish (channel t.taskId) doneMessage) r .idle

/-- What a command does with the task in hand: nothing, or the task is written, which the process
then has if it still has one, or it is put into the queue. -/
inductive Carries : Progress → Cmd Text Event → Progress → Prop where
  | aside (hc : c.quiet = true) (hd : ∀ u, d'.task = some u → d.task = some u) : Carries d c d'
  | write (ht : d.task = some t) (hu : u.SameTask t) (hd : ∀ v, d'.task = some v → v = u) :
      Carries d (.set u.taskId (modelDumpJson u)) d'
  | push (ht : d.task = some t) (hd : d'.task = none) : Carries d (.lpush (modelDumpJson t)) d'

/-- The commands that bring a task into the hands of a process. -/
inductive Fetches : Progress → (c : Cmd Text Event) → c.Answer → Progress → Prop where
  | read {id : String} (hx : parse x = some t) (ht : t.isTerminal = false) :
      Fetches .scanning (.get id) (.ok (some x)) (.read t)
  | store (hs : t.status = .pending) (hn : t.retryCount = 0) :
      Fetches .idle (.setNx t.taskId (modelDumpJson t)) r (granted r (.stored t) .idle)
  | pop (hx : parse x = some t) : Fetches .idle .brpop (.ok (some x)) (.taken t)
  | popNothing {r : (Cmd.brpop : Cmd Text Event).Answer}
      (hr : ∀ x, r = .ok (some x) → parse x = none) : Fetches .idle .brpop r .idle

theorem Move.carries {S : Setup Event} {c : Cmd Text Event} {r : c.Answer}
    (hm : Move S d c r d') : Carries d c d' ∨ Fetches d c r d' := by
  have hnone {u v : Task} {r : Except Exc Unit} {g : Progress}
      (hg : g.task = some u) (hd : (settle r g fun _ => .idle).task = some v) :
      some u = some v := by
    rw [task_settle hg (fun _ => .inl rfl) hd]
  cases hm with
  | background hc => exact .inl (.aside (quiet_of_background hc) fun _ h => h)
  | read hx ht => exact .inr (.read hx ht)
  | store hs hn => exact .inr (.store hs hn)
  | pop hx => exact .inr (.pop hx)
  | popNothing hr => exact .inr (.popNothing hr)
  | mark _ hu _ | run hu _ | halt hu _ =>
    exact .inl (.write rfl hu.1 fun v => task_settle rfl fun _ => .inl rfl)
  | retry _ hu _ _ => exact .inl (.write rfl hu fun v => task_settle rfl fun _ => .inl rfl)
  | reject hu _ | fail _ hu _ | abandon _ hu _ =>
    exact .inl (.write rfl hu.1 fun v => task_settle (finished_eq rfl rfl) fun _ => .inl rfl)
  | succeed hu _ =>
    exact .inl (.write rfl hu.1 fun v => task_settle (finished_eq rfl rfl) fun _ => .inr rfl)
  | requeue _ | requeueMarked | queue => exact .inl (.push rfl rfl)
  | launch | stolen => exact .inl (.aside rfl fun _ h => h)
  | close | closeHalted | leave => exact .inl (.aside rfl fun _ h => nomatch h)
  | acquire => exact .inl (.aside rfl fun u h => (granted_some rfl h).elim id id)
  | index => exact .inl (.aside rfl fun u h => hnone (entered_eq rfl rfl) h)
  | register _ | hangUp => exact .inl (.aside rfl fun u h => hnone rfl h)
  | start => exact .inl (.aside rfl fun u h => (settle_some h).elim id fun ⟨_, h⟩ => h)
  | wait =>
    refine .inl (.aside rfl fun u h => ?_)
    rcases settle_some h with h | ⟨e, h⟩
    · exact h
    · exact (cutShort_eq fun _ => rfl).symm.trans h
  | clear =>
    refine .inl (.aside rfl fun u h => ?_)
    rcases settle_some h with h | ⟨e, h⟩
    · exact h
    · exact congrArg some (task_unclear h)

end

/-- The exceptions that a command can end with, cut short or not. -/
def Cmd.raises (c : Cmd Text Event) (e : Exc) : Prop :=
  c.fails True e ∨ c.awaited = true ∧ e.cls = .cancelled ∨ c.onRedis = true ∧ e.cls = .other

theorem other_of_raises {c : Cmd Text Event} {e : Exc} (hw : c.awaited = false)
    (hf : ¬c.fails True e) (h : c.raises e) : e.cls = .other := by
  rcases h with h | ⟨h, _⟩ | ⟨_, h⟩
  · exact absurd h hf
  · rw [hw] at h
    cases h
  · exact h

theorem not_stolen_of_raises {c : Cmd Text Event} {e : Exc} (hf : ¬c.fails True e)
    (h : c.raises e) : e.cls ≠ .lockStolen := by
  intro he
  rcases h with h | ⟨_, h⟩ | ⟨_, h⟩
  · exact hf h
  · rw [he] at h
    cases h
  · rw [he] at h
    cases h

theorem not_raises_of_sure {c : Cmd Text Event} {e : Exc} (hc : c.sure = true)
    (hr : c.onRedis = false) : ¬c.raises e := by
  rintro (h | ⟨h, _⟩ | ⟨h, _⟩)
  · exact not_fails_of_plain (plain_of_sure hc) True e h
  · rw [not_awaited_of_sure hc] at h
    cases h
  · rw [hr] at h
    cases h

theorem asks_cleanUp {p : Cmd Text Event → Prop} (hc : ∀ τ, p (.cancelHeartbeat τ))
    (ha : ∀ τ, p (.awaitHeartbeat τ)) (hr : ∀ project τ, p (.evalRelease project τ))
    (project τ : String) : Asks p (Worker.cleanUp project τ : Py Text Event Task _) := by
  apply within_bind (asks (hc τ))
  intro _
  exact within_bind (within_attempt (asks (ha τ))) fun _ => asks (hr project τ)

variable [TaskJson Text]

/-- The orchestrator, with rules of its own for the start and the end of a process. -/
abbrev orchestrator (Text : Type) [TaskJson Text] (S : Setup Event)
    (sp : Kind → World Text Event → World Text Event → Prop)
    (ex : Kind → Except Exc Returned → World Text Event → World Text Event → Option Kind → Prop) :
    Machine (Cmd Text Event) Cmd.Answer (Except Exc Returned) (World Text Event) Kind Tick :=
  { system Text S with spawn := sp, exit := ex }

/-- Where a process of this kind begins and ends. -/
def Kind.entry : Kind → Progress
  | .recover => .scanning
  | _ => .idle

theorem task_entry (q : Kind) : q.entry.task = none := by cases q <;> rfl

/-- An invariant on how far the processes are, which every move of every process keeps. -/
structure Tracked {S : Setup Event} {sp : Kind → World Text Event → World Text Event → Prop}
    {ex : Kind → Except Exc Returned → World Text Event → World Text Event → Option Kind → Prop}
    (A : Assertion (orchestrator Text S sp ex) Progress) (w₀ : World Text Event) : Prop where
  start : A.inv [] w₀ fun _ => .gone
  move : ∀ tr w ds i c r w' l d, A.inv tr w ds →
    (orchestrator Text S sp ex).Answer i c r w w' l → A.ok tr w l w' → Move S (ds i) c r d →
    A.guar w l w' ∧ A.inv (l :: tr) w' (Function.update ds i d)
  spawn : ∀ tr w ds i q w', A.inv tr w ds → ds i = .gone → sp q w w' →
    A.ok tr w (.spawn i q) w' → A.guar w (.spawn i q) w' ∧
      A.inv (.spawn i q :: tr) w' (Function.update ds i q.entry)
  exit : ∀ tr w ds i q b w' o, A.inv tr w ds → ds i = q.entry → ex q b w w' o →
    A.ok tr w (.exit i q b) w' → A.guar w (.exit i q b) w' ∧
      A.inv (.exit i q b :: tr) w' (Function.update ds i (o.elim .gone Kind.entry))
  env : ∀ tr w ds e w', A.inv tr w ds → tick S e w w' → A.ok tr w (.env e) w' →
    A.guar w (.env e) w' ∧ A.inv (.env e :: tr) w' ds
  halt : ∀ tr w ds w', A.inv tr w ds → halt w w' → A.ok tr w .halt w' →
    A.guar w .halt w' ∧ A.inv (.halt :: tr) w' fun _ => .gone

section
variable {S : Setup Event} {sp : Kind → World Text Event → World Text Event → Prop}
  {ex : Kind → Except Exc Returned → World Text Event → World Text Event → Option Kind → Prop}
  {A : Assertion (orchestrator Text S sp ex) Progress} {w₀ : World Text Event} {i : Nat}

theorem raises_of_answer {c : Cmd Text Event} {e : Exc} {w w' : World Text Event}
    {l : SysLabel Text Event} (h : (orchestrator Text S sp ex).Answer i c (.error e) w w' l) :
    c.raises e := by
  cases h with
  | cmd h => exact .inl (exec_error h)
  | abort h =>
    obtain ⟨e', he, hc, _⟩ := h
    cases he
    exact .inr hc

variable (hA : Tracked A w₀)
include hA

theorem wp_move {c : Cmd Text Event} {Q : c.Reply → σ → Progress → Prop}
    {X : Exc → σ → Progress → Prop}
    (hQ : ∀ a, ∃ d', Move S d c (.ok a) d' ∧ Q a s d')
    (hX : ∀ e, c.raises e → ∃ d', Move S d c (.error e) d' ∧ X e s d') :
    Wp A i (ask c) Q X s d := by
  apply Wp.call
  rintro tr w ds l r w' hi rfl ha hok
  cases r with
  | ok a =>
    obtain ⟨d', hm, hq⟩ := hQ a
    obtain ⟨hg, hi'⟩ := hA.move _ _ _ _ _ _ _ _ _ hi ha hok hm
    exact ⟨hg, d', hi', hq⟩
  | error e =>
    obtain ⟨d', hm, hx⟩ := hX e (raises_of_answer ha)
    obtain ⟨hg, hi'⟩ := hA.move _ _ _ _ _ _ _ _ _ hi ha hok hm
    exact ⟨hg, d', hi', hx⟩

theorem wp_background {c : Cmd Text Event} (hc : c.background = true)
    {Q : c.Reply → σ → Progress → Prop} {X : Exc → σ → Progress → Prop} (hQ : ∀ a, Q a s d)
    (hX : ∀ e, c.raises e → X e s d) : Wp A i (ask c) Q X s d :=
  wp_move hA (fun a => ⟨d, .background hc, hQ a⟩) fun e he => ⟨d, .background hc, hX e he⟩

/-- A command that cannot raise. -/
theorem wp_certain {c : Cmd Text Event} (hc : c.background = true) (hs : c.sure = true)
    (hr : c.onRedis = false) {Q : c.Reply → σ → Progress → Prop}
    {X : Exc → σ → Progress → Prop} (hQ : ∀ a, Q a s d) : Wp A i (ask c) Q X s d :=
  wp_background hA hc hQ fun _ he => absurd he (not_raises_of_sure hs hr)

theorem frames_background (d : Progress) :
    A.Frames i (fun c : Cmd Text Event => c.background = true) d := by
  rintro c hc tr w ds l r w' hi rfl ha hok
  have hm := hA.move _ _ _ _ _ _ _ _ _ hi ha hok (.background hc)
  rwa [Function.update_eq_self] at hm

theorem wp_beside {p : Py Text Event σ α} (hp : Asks (fun c => c.background = true) p)
    {Q : α → σ → Progress → Prop} {X : Exc → σ → Progress → Prop} (hQ : ∀ a s, Q a s d)
    (hX : ∀ e s, X e s d) : Wp A i p Q X s d := by
  apply Wp.mono (Wp.of_within hp (frames_background hA d))
  · rintro a s' _ rfl
    exact hQ a s'
  · rintro e s' _ rfl
    exact hX e s'

/-- A command without a result of interest. -/
theorem wp_settle {c : Cmd Text Event} {g : Progress} {f : Exc → Progress}
    (hm : ∀ r : c.Answer, Move S d c r (settle r g f)) {Q : c.Reply → σ → Progress → Prop}
    {X : Exc → σ → Progress → Prop} (hQ : ∀ a, Q a s g) (hX : ∀ e, c.raises e → X e s (f e)) :
    Wp A i (ask c) Q X s d :=
  wp_move hA (fun a => ⟨_, hm _, hQ a⟩) fun e he => ⟨_, hm _, hX e he⟩

/-- A command after which there is nothing more to do with the task. -/
theorem wp_last {c : Cmd Text Event} {g : Progress} (hm : ∀ r, Move S d c r g)
    {Q : c.Reply → σ → Progress → Prop} {X : Exc → σ → Progress → Prop}
    (hQ : ∀ a, Q a s g) (hX : ∀ e, X e s g) : Wp A i (ask c) Q X s d :=
  wp_move hA (fun a => ⟨_, hm _, hQ a⟩) fun e _ => ⟨_, hm _, hX e⟩

theorem wp_transition_track {st : TaskStatus} {detail : String} {t : Task}
    {Q : Unit → Task → Progress → Prop} {X : Exc → Task → Progress → Prop}
    (hQ : ∀ now, Q () (t.transition now st detail) d) :
    Wp A i (Worker.transition st detail) Q X t d := by
  apply Wp.bind
  apply wp_certain hA rfl rfl rfl
  exact fun now => Wp.mutate _ (hQ now)

/-- The record of a task that is not finished is written. -/
theorem wp_update_track {t : Task} {g : Progress} {f : Exc → Progress} (ht : t.isTerminal = false)
    (hm : ∀ r : (Cmd.set t.taskId (modelDumpJson t) : Cmd Text Event).Answer,
      Move S d (.set t.taskId (modelDumpJson t)) r (settle r g f))
    {Q : Unit → Task → Progress → Prop} {X : Exc → Task → Progress → Prop} (hQ : Q () t g)
    (hX : ∀ e, e.cls ≠ .lockStolen → X e t (f e)) : Wp A i (Worker.update S) Q X t d := by
  apply Wp.bind
  apply Wp.object
  apply Wp.bind
  apply wp_settle hA hm
  · intro _
    simp only [ht, Bool.false_eq_true, false_and, ↓reduceIte]
    exact Wp.pure _ hQ
  · exact fun e he => hX e (not_stolen_of_raises (by exact not_false) he)

/-- The record of a finished task is written, and its digest is cleared. -/
theorem wp_finish_track {t : Task} {f : Exc → Progress} (ht : t.isTerminal = true)
    (hm : ∀ r : (Cmd.set t.taskId (modelDumpJson t) : Cmd Text Event).Answer,
      Move S d (.set t.taskId (modelDumpJson t)) r (settle r (finished t) f))
    {Q : Unit → Task → Progress → Prop} {X : Exc → Task → Progress → Prop}
    (hQ : Q () t (.closing t))
    (hX : ∀ e, e.cls = .other → X e t (f e) ∧ X e t (unclear t e)) :
    Wp A i (Worker.update S) Q X t d := by
  apply Wp.bind
  apply Wp.object
  apply Wp.bind
  apply wp_settle hA hm
  · intro _
    unfold finished
    by_cases hr : t.requirement = ""
    · simp only [hr, ne_eq, not_true_eq_false, and_false, ↓reduceIte]
      exact Wp.pure _ hQ
    · simp only [ht, ne_eq, hr, not_false_eq_true, and_self, ↓reduceIte]
      apply wp_settle hA fun _ => .clear
      · exact fun _ => hQ
      · exact fun e he => (hX e (other_of_raises rfl (by exact not_false) he)).2
  · exact fun e he => (hX e (other_of_raises rfl (by exact not_false) he)).1

theorem wp_close_track {t : Task} {Q : Unit → Task → Progress → Prop}
    {X : Exc → Task → Progress → Prop} {f : Exc → Progress}
    (hm : ∀ r : (Cmd.publish (channel t.taskId) doneMessage : Cmd Text Event).Answer,
      Move S d (.publish (channel t.taskId) doneMessage) r (settle r g f)) (hQ : Q () t g)
    (hX : ∀ e, e.cls ≠ .lockStolen → X e t (f e)) : Wp A i Worker.close Q X t d := by
  apply Wp.bind
  apply Wp.object
  apply wp_settle hA hm fun _ => hQ
  exact fun e he => hX e (not_stolen_of_raises (by exact not_false) he)

/-- A task that has failed is written so and closed. -/
theorem wp_fail {t : Task} {detail : String} {Q : Unit → Task → Progress → Prop}
    {X : Exc → Task → Progress → Prop}
    (hm : ∀ (u : Task) (r : (Cmd.set u.taskId (modelDumpJson u) : Cmd Text Event).Answer),
      u.Alike t → u.status = .failed →
        Move S d (.set u.taskId (modelDumpJson u)) r (settle r (finished u) fun _ => .idle))
    (hQ : ∀ u, Q () u .idle) (hX : ∀ e u, e.cls ≠ .lockStolen → X e u .idle) :
    Wp A i (Worker.reject S detail) Q X t d := by
  apply Wp.bind
  apply wp_transition_track hA
  intro now
  apply Wp.bind
  apply wp_finish_track hA rfl fun r => hm _ r (t.alike_transition now .failed detail) rfl
  · apply wp_close_track hA (g := .idle) (f := fun _ => .idle)
    · intro r
      cases r <;> exact .close
    · exact hQ _
    · exact fun e he => hX e _ he
  · intro e he
    have he : e.cls ≠ .lockStolen := by
      rw [he]
      exact nofun
    exact ⟨hX e _ he, hX e _ he⟩

/-- `_handle_retriable` puts the task back into the queue, or gives it up. -/
theorem wp_handleRetriable_track (exc : Exc) (t : Task) :
    Wp A i (Worker.handleRetriable S exc) (fun _ _ d => d = .idle)
      (fun e _ d => e.cls ≠ .lockStolen ∧ d = .idle) t (.retrying t) := by
  have hput (u : Task) (ht : (t.retryCount : Int) < S.settings.maxRetries) (hu : u.SameTask t)
      (hn : u.retryCount = t.retryCount + 1) (hs : u.status = .interrupted) :
      Wp A i (do
          Worker.update S
          let task ← object
          TaskQueue.enqueue task)
        (fun _ _ d => d = .idle) (fun e _ d => e.cls ≠ .lockStolen ∧ d = .idle) u
        (.retrying t) := by
    apply Wp.bind
    apply wp_update_track hA _ fun r => .retry ht hu hn hs
    · apply Wp.bind
      apply Wp.object
      apply wp_settle hA (g := .idle) (f := fun _ => .idle)
      · intro r
        cases r <;> exact .queue
      · exact fun _ => rfl
      · exact fun e he => ⟨not_stolen_of_raises (by exact not_false) he, rfl⟩
    · exact fun _ he => ⟨he, rfl⟩
    · rw [Task.isTerminal, hs]
      rfl
  apply Wp.bind
  apply Wp.object
  split
  · rename_i ht
    apply Wp.bind
    apply Wp.mutate
    apply Wp.bind
    apply wp_transition_track hA
    intro now
    exact hput _ ht ⟨rfl, rfl, rfl⟩ rfl rfl
  · rename_i ht
    exact wp_fail hA (fun u r hu hs => .abandon ht hu hs) (fun _ => rfl) fun _ _ he => ⟨he, rfl⟩

theorem wp_stream_track (mode : TaskMode) (t : Task) :
    Wp A i (Worker.stream S mode) (fun _ s d => s = t ∧ d = .streamed t)
      (fun e s d => s = t ∧ d = .failed t e.cls) t (.running t) := by
  apply Wp.bind
  apply Wp.object
  apply Wp.bind
  apply wp_settle hA fun r => .start
  · intro it
    apply Wp.bind
    apply wp_move hA
    · intro n
      refine ⟨_, .launch, ?_⟩
      apply Wp.bind
      apply Wp.attempt
      apply wp_settle hA fun r => .wait
      · exact fun _ => Wp.pure _ ⟨rfl, rfl⟩
      · intro e _
        dsimp only
        unfold cutShort
        split
        · exact Wp.raise _ ⟨rfl, rfl⟩
        · exact Wp.raise _ ⟨rfl, rfl⟩
    · exact fun e he => absurd he (not_raises_of_sure rfl rfl)
  · exact fun e _ => ⟨rfl, rfl⟩

/-- What an exception that leaves `_run_locked` leaves behind. -/
def Escape (e : Exc) (s : Task) (d : Progress) : Prop :=
  e.cls ≠ .lockStolen ∧ d = .idle ∨ (e.cls = .lockStolen ∨ e.cls = .base) ∧ d = .failed s e.cls

theorem wp_streamed_track (mode : TaskMode) (t : Task) :
    Wp A i (do
        Worker.stream S mode
        Worker.transition .success ""
        Worker.update S)
      (fun _ s d => d = .closing s) (fun e s d => d = .failed s e.cls) t (.running t) := by
  apply Wp.bind
  apply Wp.mono (wp_stream_track hA mode t)
  · rintro _ s d ⟨rfl, rfl⟩
    apply Wp.bind
    apply wp_transition_track hA
    intro now
    apply wp_finish_track hA rfl fun r => .succeed (Task.alike_transition _ now _ _) rfl
    · rfl
    · exact fun e _ => ⟨rfl, if_pos rfl⟩
  · rintro e s d ⟨rfl, rfl⟩
    rfl

theorem wp_attemptStream_track (mode : TaskMode) (t : Task) :
    Wp A i (Worker.attemptStream S mode) (fun _ _ d => d = .idle) Escape t (.running t) := by
  have hfail (e : Exc) (s : Task) (detail : String) (he : e.cls.unexpected) :
      Wp A i (Worker.reject S detail) (fun _ _ d => d = .idle) Escape s (.failed s e.cls) :=
    wp_fail hA (fun u r hu hs => .fail he hu hs) (fun _ => rfl) fun _ _ he => .inl ⟨he, rfl⟩
  apply Wp.bind
  apply Wp.attempt
  apply Wp.mono (wp_streamed_track hA mode t)
  · rintro _ s d rfl
    apply wp_close_track hA (g := .idle) (f := fun _ => .idle)
    · intro r
      cases r <;> exact .close
    · rfl
    · exact fun _ he => .inl ⟨he, rfl⟩
  · rintro e s d rfl
    dsimp only
    split
    case h_1 he => exact hfail e s _ (by rw [he]; exact ⟨nofun, nofun, nofun, nofun⟩)
    case h_2 he =>
      rw [he]
      apply Wp.bind
      apply wp_close_track hA (f := fun _ => .idle) fun r => .hangUp
      · exact Wp.mono (wp_handleRetriable_track hA e s) (fun _ _ _ h => h) fun _ _ _ h => .inl h
      · exact fun _ he => .inl ⟨he, rfl⟩
    case h_3 he => exact Wp.raise _ (.inr ⟨.inl he, rfl⟩)
    case h_4 he => exact Wp.raise _ (.inr ⟨.inr he, rfl⟩)
    case h_5 he =>
      rw [he]
      apply Wp.bind
      apply wp_transition_track hA
      intro now
      apply Wp.bind
      apply wp_update_track hA rfl fun r => .halt (Task.alike_transition _ now _ _) rfl
      · apply Wp.bind
        apply wp_close_track hA (g := .idle) (f := fun _ => .idle)
        · intro r
          cases r <;> exact .closeHalted
        · exact Wp.raise _ (.inl ⟨by rw [he]; exact nofun, rfl⟩)
        · exact fun _ he => .inl ⟨he, rfl⟩
      · exact fun _ he => .inl ⟨he, rfl⟩
    case h_6 h₁ h₂ h₃ h₄ h₅ => exact hfail e s _ ⟨h₂, h₃, h₅, h₄⟩

/-- The scheduler sets the mode, or raises a `ValueError`. -/
theorem wp_decide_track (t : Task) :
    Wp A i (Scheduler.decide S) (fun _ s d' => d' = d ∧ s.Alike t)
      (fun e s d' => d' = d ∧ s = t ∧ e.cls = .value) t d := by
  have happly (mode : TaskMode) : Wp A i (Scheduler.apply mode) (fun _ s d' => d' = d ∧ s.Alike t)
      (fun e s d' => d' = d ∧ s = t ∧ e.cls = .value) t d := by
    apply Wp.bind
    apply wp_certain hA rfl rfl rfl
    intro now
    exact Wp.bind (Wp.mutate _ (Wp.pure _ ⟨rfl, ⟨rfl, rfl, rfl⟩, rfl⟩))
  have hexternal {c : Cmd Text Event} {e : Exc} (hb : c.onRedis = false) (hw : c.awaited = false)
      (hc : c.external = true) (he : c.raises e) : e.isException = true := by
    rcases he with he | ⟨he, _⟩ | ⟨he, _⟩
    · exact isException_of_external hc he
    · rw [hw] at he
      cases he
    · rw [hb] at he
      cases he
  have hcheckpoint {Q : Bool → Task → Progress → Prop} {X : Exc → Task → Progress → Prop}
      (hQ : ∀ b, Q b t d) : Wp A i (Scheduler.hasCheckpoint t.projectName) Q X t d := by
    apply wp_check
    apply Wp.bind
    apply wp_background hA rfl
    · intro _
      apply wp_background hA rfl
      · exact hQ
      · exact fun e he => ⟨hexternal rfl rfl rfl he, hQ false⟩
    · exact fun e he => ⟨hexternal rfl rfl rfl he, hQ false⟩
  unfold Scheduler.decide
  apply Wp.bind
  apply Wp.object
  split
  · apply Wp.bind
    apply hcheckpoint
    intro b
    split
    · exact happly _
    · exact Wp.raise _ ⟨rfl, rfl, rfl⟩
  · apply Wp.bind
    apply wp_check
    apply wp_background hA rfl
    · intro b
      split
      · apply Wp.bind
        apply hcheckpoint
        intro b
        split
        · exact happly _
        · exact happly _
      · exact happly _
    · exact fun e he => ⟨hexternal rfl rfl rfl he, happly _⟩

theorem wp_runLocked_track (t : Task) :
    Wp A i (Worker.runLocked S) (fun _ _ d => d = .idle) Escape t (.locked t) := by
  have hreject (s : Task) (hs : s.Alike t) (detail : String) :
      Wp A i (Worker.reject S detail) (fun _ _ d => d = .idle) Escape s (.locked t) :=
    wp_fail hA (fun u r hu hst => .reject (hu.trans hs) hst) (fun _ => rfl)
      fun _ _ he => .inl ⟨he, rfl⟩
  apply Wp.bind
  apply Wp.object
  apply Wp.bind
  apply Wp.attempt
  apply wp_background hA rfl
  · intro _
    apply Wp.bind
    apply Wp.attempt
    apply Wp.mono (wp_decide_track hA t)
    · rintro mode s d ⟨rfl, hs⟩
      apply Wp.bind
      apply wp_transition_track hA
      intro now
      apply Wp.bind
      apply wp_update_track hA rfl
        fun r => .run ((s.alike_transition now _ _).trans hs) (Task.transition_status ..)
      · exact wp_attemptStream_track hA mode _
      · exact fun _ he => .inl ⟨he, rfl⟩
    · rintro e s d ⟨rfl, rfl, he⟩
      dsimp only
      rw [if_pos he]
      exact hreject s (.refl s) _
  · intro e he
    have he : e.isException = true := by
      rcases he with he | ⟨he, _⟩ | ⟨he, _⟩
      · exact isException_of_external (c := .factoryGet _ _) rfl he
      · cases he
      · cases he
    dsimp only
    rw [if_pos he]
    exact hreject t (.refl t) _

theorem wp_guarded_track (t : Task) :
    Wp A i (Worker.guarded S) (fun _ _ d => d = .idle)
      (fun _ s d => d = .idle ∨ d = .failed s .base) t (.locked t) := by
  apply Wp.bind
  apply Wp.attempt
  apply Wp.mono (wp_runLocked_track hA t)
  · rintro _ s d rfl
    exact Wp.pure _ rfl
  · rintro e s d (⟨he, rfl⟩ | ⟨he | he, rfl⟩)
    · dsimp only
      rw [if_neg he]
      exact Wp.raise _ (.inl rfl)
    · dsimp only
      rw [if_pos he, he]
      apply Wp.bind
      apply Wp.object
      apply Wp.bind
      apply wp_move hA
      · intro _
        refine ⟨_, .stolen, ?_⟩
        exact Wp.mono (wp_handleRetriable_track hA _ s) (fun _ _ _ h => h) fun _ _ _ h => .inl h.2
      · exact fun e he => absurd he (not_raises_of_sure rfl rfl)
    · dsimp only
      rw [if_neg (by rw [he]; nofun), he]
      exact Wp.raise _ (.inr rfl)

theorem wp_execute_track (t : Task) :
    Wp A i (Worker.execute S) (fun _ _ d => d = .idle) (fun _ _ d => d = .idle) t
      (.taken t) := by
  have hclean (p τ : String) (s : Task) {Q : Progress → Prop} (hd : Q .idle) :
      Wp A i (Worker.cleanUp p τ) (fun _ _ d => Q d) (fun _ _ d => Q d) s .idle :=
    wp_beside hA (asks_cleanUp (fun _ => rfl) (fun _ => rfl) (fun _ _ => rfl) p τ)
      (fun _ _ => hd) fun _ _ => hd
  have hleave (p τ : String) (s : Task) : Wp A i (Worker.cleanUp p τ) (fun _ _ d => d = .idle)
      (fun _ _ d => d = .idle) s (.failed s .base) := by
    apply Wp.bind
    apply wp_move hA
    · intro _
      refine ⟨_, .leave, ?_⟩
      apply wp_beside hA
      · exact within_bind (within_attempt (asks rfl)) fun _ => asks rfl
      · exact fun _ _ => rfl
      · exact fun _ _ => rfl
    · exact fun e _ => ⟨_, .leave, rfl⟩
  apply Wp.bind
  apply Wp.object
  apply Wp.bind
  apply wp_certain hA rfl rfl rfl
  intro τ
  apply Wp.bind
  apply wp_move hA
  · intro b
    refine ⟨_, .acquire, ?_⟩
    cases b with
    | true =>
      apply Wp.bind
      apply wp_certain hA rfl rfl rfl
      intro _
      apply Wp.ensure
      apply Wp.mono (wp_guarded_track hA t)
      · rintro _ s d rfl
        exact hclean _ _ s rfl
      · rintro e s d (rfl | rfl)
        · exact hclean _ _ s rfl
        · exact hleave _ _ s
    | false =>
      apply Wp.bind
      apply wp_certain hA rfl rfl rfl
      intro _
      apply Wp.bind
      apply wp_last hA fun r => .queue
      · exact fun _ => wp_background hA rfl (fun _ => rfl) fun _ _ => rfl
      · exact fun _ => rfl
  · exact fun e _ => ⟨_, .acquire, rfl⟩

theorem wp_turn_track {s : Unit} :
    Wp A i (Worker.turn S) (fun _ _ d => d = .idle) (fun _ _ d => d = .idle) s .idle := by
  apply Wp.bind
  apply Wp.bind
  apply wp_move hA
  · intro o
    cases o with
    | none => exact ⟨_, .popNothing nofun, Wp.pure _ (Wp.pure _ rfl)⟩
    | some x =>
      cases hx : parse x with
      | none =>
        refine ⟨_, .popNothing fun y hy => ?_, ?_⟩
        · cases hy
          exact hx
        · simp only [hx]
          exact Wp.pure _ (Wp.pure _ rfl)
      | some t =>
        refine ⟨_, .pop hx, ?_⟩
        simp only [hx]
        exact Wp.pure _ (Wp.on t (wp_execute_track hA t))
  · exact fun e _ => ⟨_, .popNothing nofun, rfl⟩

theorem wp_save_track {s : σ} {t : Task} (hs : t.status = .pending) (hn : t.retryCount = 0) :
    Wp A i (TaskStore.save S t) (fun _ _ d => d = .queueing t) (fun _ _ d => d = .idle) s
      .idle := by
  apply Wp.bind
  apply wp_move hA
  · intro b
    refine ⟨_, .store hs hn, ?_⟩
    cases b with
    | true =>
      apply Wp.bind
      apply wp_settle hA fun r => .index
      · intro _
        unfold entered
        by_cases hr : t.requirement = ""
        · simp only [hr, ne_eq, not_true_eq_false, ↓reduceIte]
          exact Wp.pure _ rfl
        · simp only [hr, ne_eq, not_false_eq_true, ↓reduceIte]
          exact wp_settle hA (fun r => .register hr) (fun _ => rfl) fun _ _ => rfl
      · exact fun _ _ => rfl
    | false => exact Wp.bind (Wp.raise _ rfl)
  · exact fun e _ => ⟨_, .store hs hn, rfl⟩

theorem wp_createTask_track {s : σ} (body : TaskCreateRequest) :
    Wp A i (createTask S body) (fun _ _ d => d = .idle) (fun _ _ d => d = .idle) s .idle := by
  have hlookup (c : Cmd Text Event) (hc : c.lookup) : c.background = true := by
    cases c with
    | smembers _ | mget _ | getDigest _ | get _ => rfl
    | _ => exact absurd hc not_false
  apply Wp.bind
  apply wp_beside hA ((asks_findExisting body).mono hlookup)
  · intro o s
    cases o with
    | some t => exact Wp.pure _ rfl
    | none =>
      apply Wp.bind
      apply Wp.bind
      apply wp_certain hA rfl rfl rfl
      intro id
      apply Wp.bind
      apply wp_certain hA rfl rfl rfl
      intro createdAt
      apply Wp.bind
      apply wp_certain hA rfl rfl rfl
      intro updatedAt
      apply Wp.pure
      apply Wp.bind
      apply Wp.mono (wp_save_track hA rfl rfl)
      · rintro _ s d rfl
        apply Wp.bind
        exact wp_last hA (fun r => .queue) (fun _ => Wp.pure _ rfl) fun _ => rfl
      · exact fun _ _ _ h => h
  · exact fun _ _ => rfl

theorem wp_recoverKey_track {s : σ} (id : String) :
    Wp A i (recoverKey S id) (fun _ _ d => d = .scanning) (fun _ _ d => d = .scanning) s
      .scanning := by
  apply Wp.bind
  apply wp_move hA
  · intro o
    cases o with
    | none => exact ⟨_, .background rfl, Wp.pure _ rfl⟩
    | some raw =>
      cases hx : (modelValidateJson raw : Except String Task) with
      | error msg =>
        refine ⟨_, .background rfl, ?_⟩
        simp only [hx]
        exact Wp.pure _ rfl
      | ok t =>
        simp only [hx]
        cases ht : t.isTerminal with
        | true => exact ⟨_, .background rfl, Wp.pure _ rfl⟩
        | false =>
          refine ⟨_, .read (parse_eq_some.2 hx) ht, ?_⟩
          simp only [Bool.false_eq_true, ↓reduceIte]
          split
          · rename_i hs
            apply Wp.bind
            apply wp_certain hA rfl rfl rfl
            intro now
            apply Wp.bind
            apply Wp.bind
            apply wp_settle hA
              fun r => .mark hs (t.alike_transition now _ _) (Task.transition_status ..)
            · intro _
              apply Wp.pure
              apply Wp.bind
              exact wp_last hA (fun r => .requeueMarked) (fun _ => Wp.pure _ rfl) fun _ => rfl
            · exact fun _ _ => rfl
          · rename_i hs
            apply Wp.bind
            exact wp_last hA (fun r => .requeue hs) (fun _ => Wp.pure _ rfl) fun _ => rfl
  · exact fun e _ => ⟨_, .background rfl, rfl⟩

theorem wp_recoverKeys_track {s : σ} (ids : List String) (n : Nat) :
    Wp A i (recoverKeys S ids n) (fun _ _ d => d = .scanning) (fun _ _ d => d = .scanning) s
      .scanning := by
  induction ids generalizing n s with
  | nil => exact Wp.pure _ rfl
  | cons id ids ih =>
    apply Wp.bind
    apply Wp.mono (wp_recoverKey_track hA id)
    · rintro b s d rfl
      exact ih _
    · exact fun _ _ _ h => h

theorem track_body (q : Kind) :
    Safe A i (fun _ d => d = q.entry) ((orchestrator Text S sp ex).body q) q.entry := by
  apply Wp.start
  cases q with
  | recover =>
    apply Wp.bind
    apply Wp.bind
    apply wp_background hA rfl
    · intro pages
      exact Wp.mono (wp_recoverKeys_track hA _ 0) (fun _ _ _ h => Wp.pure _ h) fun _ _ _ h => h
    · exact fun _ _ => rfl
  | worker =>
    apply Wp.bind
    exact Wp.mono (wp_turn_track hA) (fun _ _ _ h => Wp.pure _ h) fun _ _ _ h => h
  | request body =>
    apply Wp.bind
    exact Wp.mono (wp_createTask_track hA body) (fun _ _ _ h => Wp.pure _ h) fun _ _ _ h => h

/-- An invariant that every move keeps holds in every run. -/
theorem Tracked.sound : A.Sound .gone (fun q _ d => d = q.entry) w₀ where
  start := hA.start
  spawn := by
    intro tr w ds i q w' hi hd hs hok
    obtain ⟨hg, hi'⟩ := hA.spawn tr w ds i q w' hi hd hs hok
    exact ⟨hg, _, hi', track_body hA q⟩
  exit := by
    intro tr w ds i q b w' o hi hd he hok
    obtain ⟨hg, hi'⟩ := hA.exit tr w ds i q b w' o hi hd he hok
    refine ⟨hg, ?_⟩
    cases o with
    | none => exact hi'
    | some q' => exact ⟨_, hi', track_body hA q'⟩
  env := hA.env
  halt := hA.halt

end

end Orchestrator
