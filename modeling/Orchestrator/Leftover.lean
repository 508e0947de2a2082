import Orchestrator.Effect
import Orchestrator.Progress
import Orchestrator.Schedule
import Orchestrator.Concurrency.Monitor

namespace Orchestrator
open Concurrency Async Progress
set_option autoImplicit true

/-- The statuses that an execution may leave behind. -/
def TaskStatus.Settled (s : TaskStatus) : Prop :=
  s = .success ∨ s = .failed ∨ s = .interrupted

theorem TaskStatus.Settled.not_running {s : TaskStatus} (h : s.Settled) : s ≠ .running := by
  rcases h with rfl | rfl | rfl <;> decide

/-- What a turn has come to since its record was set to running: the record it has written last,
whether the engine has raised a `RetriableError` and the close in the handler is still to come or
was cut short, and whether the engine has raised what no clause catches. -/
inductive Aftermath (Text : Type) where
  | before
  | ran (id : String) (x : Text)
  | failing (id : String) (x : Text)
  | cut (id : String) (x : Text)
  | passed (id : String) (x : Text)
  deriving DecidableEq

namespace Aftermath

def last : Aftermath Text → Option (String × Text)
  | .before => none
  | .ran id x | .failing id x | .cut id x | .passed id x => some (id, x)

/-- The two ways in which a turn ends without a last write. -/
def isLost : Aftermath Text → Bool
  | .cut .. | .passed .. => true
  | _ => false

def fail : Aftermath Text → Aftermath Text
  | .ran id x => .failing id x
  | g => g

def pass : Aftermath Text → Aftermath Text
  | .ran id x => .passed id x
  | g => g

/-- The engine raises. -/
def raise (e : Exc) (g : Aftermath Text) : Aftermath Text :=
  if e.cls = .retriable then g.fail else if e.cls = .base then g.pass else g

def close : Aftermath Text → Aftermath Text
  | .failing id x => .ran id x
  | g => g

def cutOff : Aftermath Text → Aftermath Text
  | .failing id x => .cut id x
  | g => g

theorem last_pass {g g' : Aftermath Text} {y : String × Text}
    (hg : g' = .before ∨ g' = g ∨ (∃ e, g' = g.raise e) ∨ g' = g.close ∨ g' = g.cutOff)
    (h : g'.last = some y) : g.last = some y := by
  rcases hg with rfl | rfl | ⟨e, rfl⟩ | rfl | rfl
  · cases h
  · exact h
  · unfold raise at h
    split at h
    · cases g <;> exact h
    · split at h
      · cases g <;> exact h
      · exact h
  · cases g <;> exact h
  · cases g <;> exact h

def Open (g : Aftermath Text) : Prop := g = .before ∨ ∃ id x, g = .ran id x

/-- A close leaves a turn alone that has written what it leaves behind. -/
theorem Open.close {g : Aftermath Text} (h : g.Open) : g.close = g ∧ g.cutOff = g := by
  obtain rfl | ⟨id, x, rfl⟩ := h <;> exact ⟨rfl, rfl⟩

variable [TaskJson Text]

def store (id : String) (x : Text) : Aftermath Text → Aftermath Text
  | .before => if (parse x).any fun t => t.status = .running then .ran id x else .before
  | _ => .ran id x

/-- The record written last is in the status `st`. -/
def Holds (x : Text) (P : TaskStatus → Prop) : Prop := ∃ t, parse x = some t ∧ P t.status

def Running (g : Aftermath Text) : Prop := ∃ id x, g = .ran id x ∧ Holds x (· = .running)

def Failing (g : Aftermath Text) : Prop := ∃ id x, g = .failing id x ∧ Holds x (· = .running)

def Passed (g : Aftermath Text) : Prop := ∃ id x, g = .passed id x ∧ Holds x (· = .running)

def Done (g : Aftermath Text) : Prop := g = .before ∨ ∃ id x, g = .ran id x ∧ Holds x (·.Settled)

def Over (g : Aftermath Text) : Prop :=
  g.Done ∨ ∃ id x, (g = .cut id x ∨ g = .passed id x) ∧ Holds x (· = .running)

/-- What is known of a turn, by how far the process is. -/
def At (g : Aftermath Text) : Progress → Prop
  | .gone | .scanning | .read _ | .marked _ | .taken _ | .locked _ => g = .before
  | .idle | .stored _ | .indexed _ | .queueing _ => g.Over
  | .running _ | .started _ | .streaming .. => g.Running
  | .streamed _ | .retrying _ => g.Open
  | .failed _ cls =>
    if cls = .retriable then g.Failing else if cls = .base then g.Passed else g.Open
  | .finishing _ | .closing _ | .halting _ => g.Done

theorem Running.isOpen {g : Aftermath Text} (h : g.Running) : g.Open := by
  obtain ⟨id, x, rfl, -⟩ := h
  exact .inr ⟨id, x, rfl⟩

theorem Running.fail {g : Aftermath Text} (h : g.Running) : g.fail.Failing := by
  obtain ⟨id, x, rfl, hx⟩ := h
  exact ⟨id, x, rfl, hx⟩

theorem Failing.close {g : Aftermath Text} (h : g.Failing) : g.close.Open := by
  obtain ⟨id, x, rfl, -⟩ := h
  exact .inr ⟨id, x, rfl⟩

theorem Failing.cutOff {g : Aftermath Text} (h : g.Failing) : g.cutOff.Over := by
  obtain ⟨id, x, rfl, hx⟩ := h
  exact .inr ⟨id, x, .inl rfl, hx⟩

theorem Running.pass {g : Aftermath Text} (h : g.Running) : g.pass.Passed := by
  obtain ⟨id, x, rfl, hx⟩ := h
  exact ⟨id, x, rfl, hx⟩

theorem Passed.over {g : Aftermath Text} (h : g.Passed) : g.Over := by
  obtain ⟨id, x, rfl, hx⟩ := h
  exact .inr ⟨id, x, .inr rfl, hx⟩

theorem Done.isOpen {g : Aftermath Text} (h : g.Done) : g.Open :=
  h.imp id fun ⟨id, x, hg, _⟩ => ⟨id, x, hg⟩

theorem store_settled {u : Task} (hu : u.status.Settled) :
    (before : Aftermath Text).store u.taskId (modelDumpJson u) = .before := by
  have hrun : ((parse (modelDumpJson u : Text)).any fun t => t.status = .running) = false := by
    rw [parse_dump, Option.any_some, decide_eq_false hu.not_running]
  rw [Aftermath.store, hrun]
  rfl

theorem Open.store {g : Aftermath Text} {u : Task} (h : g.Open) (hu : u.status.Settled) :
    (g.store u.taskId (modelDumpJson u)).Done := by
  obtain rfl | ⟨id, x, rfl⟩ := h
  · exact .inl (store_settled hu)
  · exact .inr ⟨_, _, rfl, u, parse_dump u, hu⟩

theorem store_before {u : Task} (hu : u.status = .running) :
    ((before : Aftermath Text).store u.taskId (modelDumpJson u)).Running := by
  have hrun : ((parse (modelDumpJson u : Text)).any fun t => t.status = .running) = true := by
    rw [parse_dump, Option.any_some, decide_eq_true hu]
  rw [Aftermath.store, hrun]
  exact ⟨_, _, rfl, u, parse_dump u, hu⟩

end Aftermath

section
variable [TaskJson Text]

def aftermaths : Monitor (Cmd Text Event) Cmd.Answer (Aftermath Text) where
  init := .before
  cmd g c r :=
    match c, r with
    | .brpop, _ => .before
    | .set id x, _ => g.store id x
    | .iterEvents .., .error e | .awaitFuture .., .error e => g.raise e
    | .publish .., _ => g.close
    | _, _ => g
  abort g c _ :=
    match c with
    | .brpop => .before
    | .publish .. => g.cutOff
    | _ => g

/-- The writes of records succeed. -/
def writesSucceed : Filter Text Event := fun _ _ l _ =>
  match l with
  | .abort _ (.set ..) _ => False
  | _ => True

instance (tr : List (SysLabel Text Event)) (w : World Text Event) (l : SysLabel Text Event)
    (w' : World Text Event) : Decidable (writesSucceed tr w l w') := by
  unfold writesSucceed
  split <;> infer_instance

section
variable {S : Setup Event} {sp : Kind → World Text Event → World Text Event → Prop}
  {ex : Kind → Except Exc Returned → World Text Event → World Text Event → Option Kind → Prop}

/-- What a monitor reads suits how far each process is. -/
def watched (S : Setup Event) (m : Monitor (Cmd Text Event) Cmd.Answer γ) (ok : Filter Text Event)
    (At : γ → Progress → Prop) : Assertion (orchestrator Text S sp ex) Progress where
  ok := ok
  inv tr _ ds := ∀ i, At (m.read i tr) (ds i)
  guar _ _ _ := True

theorem watched_tracked {m : Monitor (Cmd Text Event) Cmd.Answer γ} {ok : Filter Text Event}
    {At : γ → Progress → Prop} {w₀ : World Text Event} (hgone : At m.init .gone)
    (hentry : ∀ q : Kind, At m.init q.entry)
    (hcmd : ∀ (g : γ) (c : Cmd Text Event) (r : c.Answer) (w w' : World Text Event)
      (d d' : Progress), At g d → exec c r w w' → Move S d c r d' → At (m.cmd g c r) d')
    (habort : ∀ (tr : List (SysLabel Text Event)) (i : Nat) (c : Cmd Text Event) (r : c.Answer)
      (w w' : World Text Event) (d d' : Progress), At (m.read i tr) d → abort c r w w' →
      ok tr w (.abort i c r) w' → Move S d c r d' → At (m.abort (m.read i tr) c r) d') :
    Tracked (watched S m ok At : Assertion (orchestrator Text S sp ex) Progress) w₀ := by
  have hstep {tr : List (SysLabel Text Event)} {l : SysLabel Text Event} {i : Nat} {d : Progress}
      {ds : Nat → Progress} (h : ∀ i, At (m.read i tr) (ds i)) (hi : At (m.read i (l :: tr)) d)
      (hj : ∀ j, j ≠ i → m.read j (l :: tr) = m.read j tr) (j : Nat) :
      At (m.read j (l :: tr)) (Function.update ds i d j) := by
    by_cases hji : j = i
    · subst hji
      rwa [Function.update_self]
    · rw [Function.update_of_ne hji, hj j hji]
      exact h j
  constructor
  · exact fun _ => hgone
  · intro tr w ds i c r w' l d hi ha hok hm
    refine ⟨trivial, ?_⟩
    cases ha with
    | cmd hx =>
      refine hstep hi ?_ fun j hj => by rw [Monitor.read, if_neg (Ne.symm hj)]
      rw [Monitor.read, if_pos rfl]
      exact hcmd _ c r w w' _ d (hi i) hx hm
    | abort hx =>
      refine hstep hi ?_ fun j hj => by rw [Monitor.read, if_neg (Ne.symm hj)]
      rw [Monitor.read, if_pos rfl]
      exact habort tr i c r w w' _ d (hi i) hx hok hm
  · intro tr w ds i q w' hi _ _ _
    refine ⟨trivial, hstep hi ?_ fun j hj => by rw [Monitor.read, if_neg (Ne.symm hj)]⟩
    rw [Monitor.read, if_pos rfl]
    exact hentry q
  · intro tr w ds i q b w' o hi _ _ _
    refine ⟨trivial, hstep hi ?_ fun j hj => by rw [Monitor.read, if_neg (Ne.symm hj)]⟩
    rw [Monitor.read, if_pos rfl]
    cases o with
    | none => exact hgone
    | some q' => exact hentry q'
  · exact fun tr w ds e w' hi _ _ => ⟨trivial, hi⟩
  · exact fun tr w ds w' _ _ _ => ⟨trivial, fun _ => hgone⟩

theorem aftermaths_background {c : Cmd Text Event} (hc : c.background = true) (g : Aftermath Text)
    (r : c.Answer) : aftermaths.cmd g c r = g ∧ aftermaths.abort g c r = g := by
  cases c with
  | brpop | set _ _ | iterEvents _ _ _ | awaitFuture _ _ | publish _ _ => cases hc
  | _ => exact ⟨rfl, rfl⟩

namespace Aftermath

theorem at_finished {g : Aftermath Text} {t : Task} (h : g.Done) : g.At (finished t) := by
  unfold finished
  split <;> exact h

theorem at_entered {g : Aftermath Text} {t : Task} (h : g.Over) : g.At (entered t) := by
  unfold entered
  split <;> exact h

theorem at_granted {g : Aftermath Text} {r : Except Exc Bool} {d d' : Progress} (hd : g.At d)
    (hd' : g.At d') (hi : g.Over) : g.At (granted r d d') := by
  rcases r with e | _ | _
  · exact hi
  · exact hd'
  · exact hd

theorem at_settle {g : Aftermath Text} {r : Except Exc α} {d : Progress} {f : Exc → Progress}
    (hd : g.At d) (hf : ∀ e, g.At (f e)) : g.At (settle r d f) := by
  cases r with
  | ok _ => exact hd
  | error e => exact hf e

/-- The stream of a turn has raised. -/
theorem Running.at_failed {g : Aftermath Text} (h : g.Running) (t : Task) (e : Exc) :
    (g.raise e).At (.failed t e.cls) := by
  unfold At raise
  dsimp only
  split
  · exact h.fail
  · split
    · exact h.pass
    · exact h.isOpen

theorem Open.at_failed {g : Aftermath Text} {cls : ExcClass} (h : g.Open) (t : Task)
    (hc : cls ≠ .retriable) (hb : cls ≠ .base) : g.At (.failed t cls) := by
  unfold At
  dsimp only
  rwa [if_neg hc, if_neg hb]

theorem At.cmd {g : Aftermath Text} {c : Cmd Text Event} {r : c.Answer} {w w' : World Text Event}
    {d d' : Progress} (h : g.At d) (hx : exec c r w w') (hm : Move S d c r d') :
    (aftermaths.cmd g c r).At d' := by
  cases hm with
  | background hc =>
    rw [(aftermaths_background hc g r).1]
    exact h
  | read _ _ | requeue _ | requeueMarked | queue | launch => exact h
  | pop _ => rfl
  | popNothing _ => exact .inl (.inl rfl)
  | store _ _ => exact at_granted h h h
  | index => exact at_settle (at_entered h) fun _ => h
  | register _ => exact at_settle h fun _ => h
  | acquire =>
    have hover : g.Over := .inl (.inl h)
    exact at_granted h hover hover
  | mark _ _ hs =>
    obtain ⟨rfl, -⟩ := hx
    obtain rfl : g = .before := h
    exact store_settled (.inr (.inr hs))
  | run _ hs =>
    obtain ⟨rfl, -⟩ := hx
    obtain rfl : g = .before := h
    exact store_before hs
  | reject _ hs =>
    obtain ⟨rfl, -⟩ := hx
    exact at_finished (Open.store (.inl h) (.inr (.inl hs)))
  | start =>
    rename_i r
    cases r with
    | ok it => exact h
    | error e => exact h.at_failed _ e
  | wait =>
    rename_i r
    cases r with
    | ok _ => exact Running.isOpen h
    | error e =>
      change (g.raise e).At (cutShort _ e)
      by_cases he : e.cls = .timeout
      · have hg : g.raise e = g := by
          rw [raise, he, if_neg (by decide), if_neg (by decide)]
        rw [cutShort, if_pos he, hg]
        exact (Running.isOpen h).at_failed _ (by decide) (by decide)
      · rw [cutShort, if_neg he]
        exact Running.at_failed h _ e
  | succeed _ hs =>
    obtain ⟨rfl, -⟩ := hx
    exact at_finished (Open.store h (.inl hs))
  | fail he _ hs =>
    obtain ⟨rfl, -⟩ := hx
    have h : g.Open := by
      rw [At, if_neg he.1, if_neg he.2.2.2] at h
      exact h
    exact at_finished (h.store (.inr (.inl hs)))
  | halt _ hs =>
    obtain ⟨rfl, -⟩ := hx
    exact Open.store (g := g) h (.inr (.inr hs))
  | hangUp =>
    obtain ⟨rfl, -⟩ := hx
    exact Failing.close h
  | stolen => exact h
  | leave => exact Passed.over h
  | retry _ _ _ hs =>
    obtain ⟨rfl, -⟩ := hx
    exact .inl (Open.store h (.inr (.inr hs)))
  | abandon _ _ hs =>
    obtain ⟨rfl, -⟩ := hx
    exact at_finished (Open.store h (.inr (.inl hs)))
  | clear =>
    obtain ⟨rfl, -⟩ := hx
    exact h
  | close | closeHalted =>
    have hd : g.Done := h
    change g.close.Over
    rw [hd.isOpen.close.1]
    exact .inl hd

/-- A command is cut short that is not the write of a record. -/
theorem At.abort {g : Aftermath Text} {c : Cmd Text Event} {r : c.Answer} {w w' : World Text Event}
    {d d' : Progress} (h : g.At d) (hx : Orchestrator.abort c r w w')
    (hok : ∀ id x, c ≠ .set id x) (hm : Move S d c r d') : (aftermaths.abort g c r).At d' := by
  have hcls {c : Cmd Text Event} {e : Exc} (he : c.awaited = true ∧ e.cls = .cancelled ∨
      c.onRedis = true ∧ e.cls = .other) :
      e.cls ≠ .retriable ∧ e.cls ≠ .base ∧ e.cls ≠ .timeout := by
    rcases he with ⟨_, he⟩ | ⟨_, he⟩ <;> rw [he] <;> exact ⟨by decide, by decide, by decide⟩
  obtain ⟨e, rfl, he, -⟩ := hx
  cases hm with
  | background hc =>
    rw [(aftermaths_background hc g _).2]
    exact h
  | requeue _ | requeueMarked | queue => exact h
  | popNothing _ => exact .inl (.inl rfl)
  | store _ _ | index | register _ => exact h
  | acquire => exact .inl (.inl h)
  | mark _ _ _ | run _ _ | reject _ _ | succeed _ _ | fail _ _ _ | halt _ _ | retry _ _ _ _
  | abandon _ _ _ => exact absurd rfl (hok _ _)
  | start => exact absurd he (by simp [Cmd.awaited, Cmd.onRedis])
  | wait =>
    obtain ⟨hr, hb, ht⟩ := hcls he
    change g.At (cutShort _ e)
    rw [cutShort, if_neg ht]
    exact (Running.isOpen h).at_failed _ hr hb
  | hangUp => exact Failing.cutOff h
  | leave => exact Passed.over h
  | clear =>
    obtain ⟨hr, hb, -⟩ := hcls he
    change g.At (unclear _ e)
    unfold unclear
    split
    · exact (Done.isOpen h).at_failed _ hr hb
    · exact .inl h
  | close | closeHalted =>
    have hd : g.Done := h
    change g.cutOff.Over
    rw [hd.isOpen.close.2]
    exact .inl hd

end Aftermath

theorem aftermaths_tracked {w₀ : World Text Event} :
    Tracked (watched S aftermaths writesSucceed Aftermath.At :
    Assertion (orchestrator Text S sp ex) Progress) w₀ := by
  apply watched_tracked
  · rfl
  · intro q
    cases q with
    | recover => rfl
    | worker | request _ => exact .inl (.inl rfl)
  · exact fun g c r w w' d d' h hx hm => h.cmd hx hm
  · intro tr i c r w w' d d' h hx hok hm
    refine h.abort hx (fun id x hc => ?_) hm
    subst hc
    exact hok

end

/-- The process that has written the record of a task last. -/
def writer (id : String) : List (SysLabel Text Event) → Option Nat
  | .cmd i (.set id' _) _ :: tr | .abort i (.set id' _) _ :: tr =>
    if id' = id then some i else writer id tr
  | _ :: tr => writer id tr
  | [] => none

theorem Aftermath.last_store {g : Aftermath Text} {id id' : String} {x y : Text}
    (h : (g.store id' y).last = some (id, x)) : id = id' ∧ x = y := by
  cases g with
  | before =>
    rw [store] at h
    split at h
    · cases h
      exact ⟨rfl, rfl⟩
    · cases h
  | _ =>
    cases h
    exact ⟨rfl, rfl⟩

theorem aftermaths_pass {c : Cmd Text Event} (hc : ∀ id x, c ≠ .set id x) (g : Aftermath Text)
    (r : c.Answer) : (∀ y, (aftermaths.cmd g c r).last = some y → g.last = some y) ∧
      ∀ y, (aftermaths.abort g c r).last = some y → g.last = some y := by
  have hraise {α : Type} (r : Except Exc α) {g' : Aftermath Text} (hok : ∀ a, r = .ok a → g' = g)
      (herror : ∀ e, r = .error e → g' = g.raise e)
      (y : String × Text) : g'.last = some y → g.last = some y := by
    cases r with
    | ok a => exact Aftermath.last_pass (.inr (.inl (hok a rfl)))
    | error e => exact Aftermath.last_pass (.inr (.inr (.inl ⟨e, herror e rfl⟩)))
  cases c with
  | set id x => exact absurd rfl (hc id x)
  | brpop =>
    exact ⟨fun _ => Aftermath.last_pass (.inl rfl), fun _ => Aftermath.last_pass (.inl rfl)⟩
  | publish _ _ =>
    exact ⟨fun _ => Aftermath.last_pass (.inr (.inr (.inr (.inl rfl)))),
      fun _ => Aftermath.last_pass (.inr (.inr (.inr (.inr rfl))))⟩
  | iterEvents _ _ _ | awaitFuture _ _ =>
    refine ⟨hraise r ?_ ?_, fun _ h => h⟩
    · rintro a rfl
      rfl
    · rintro e rfl
      rfl
  | _ => exact ⟨fun _ h => h, fun _ h => h⟩

section
variable {S : Setup Event} {i : Nat} {w w' : World Text Event} {l : SysLabel Text Event}
  {id : String} {x : Text} {tr : List (SysLabel Text Event)}

theorem lookup_answer {c : Cmd Text Event} {r : c.Answer}
    (h : (system Text S).Answer i c r w w' l) (hc : ∀ y, c ≠ .set id y)
    (hx : w.redis.tasks.lookup id = some x) : w'.redis.tasks.lookup id = some x := by
  cases c with
  | set id' y =>
    have hne : id ≠ id' := by
      rintro rfl
      exact hc y rfl
    rcases set_effect h with rfl | ⟨_, hw⟩
    · exact (AList.lookup_insert_ne hne).trans hx
    · rwa [hw.redis]
  | setNx id' y =>
    rcases setNx_effect h with ⟨hn, rfl, _⟩ | ⟨_, hw⟩
    · have hne : id ≠ id' := by
        rintro rfl
        exact hn (AList.lookup_isSome.1 (by rw [hx]; rfl))
      exact (AList.lookup_insert_ne hne).trans hx
    · rwa [hw.redis]
  | lpush y =>
    rcases lpush_effect h with rfl | ⟨_, hw⟩
    · exact hx
    · rwa [hw.redis]
  | brpop =>
    rcases brpop_effect h with ⟨y, _, rfl, _⟩ | ⟨_, hw⟩
    · exact hx
    · rwa [hw.redis]
  | _ => rwa [(answer_sameTasks rfl h).tasks]

theorem writer_answer {c : Cmd Text Event} {r : c.Answer}
    (h : (system Text S).Answer i c r w w' l) (hc : ∀ y, c ≠ .set id y) :
    writer id (l :: tr) = writer id tr := by
  cases c with
  | set id' y =>
    have hne : id' ≠ id := by
      rintro rfl
      exact hc y rfl
    cases h <;> rw [writer, if_neg hne]
  | _ => cases h <;> rfl

/-- The record that a turn has written last is stored if nobody has written it since. -/
theorem lookup_of_writer {s : SysConfig Text Event}
    (hr : Run (system Text S) writesSucceed (.idle .init) tr s) (hw : writer id tr = some i)
    (hl : (aftermaths.read i tr).last = some (id, x)) : s.world.redis.tasks.lookup id = some x := by
  have hidle {g : Aftermath Text} {h : Prop} [Decidable h]
      (hl : (if h then (.before : Aftermath Text) else g).last = some (id, x)) :
      g.last = some (id, x) := by
    split at hl
    · cases hl
    · exact hl
  induction hr with
  | nil => cases hw
  | cons hr hs hok ih =>
    cases hs with
    | @answer j q c k r w' l hp ha =>
      by_cases hc : ∃ y, c = .set id y
      · obtain ⟨y, rfl⟩ := hc
        cases ha with
        | abort _ => exact absurd hok not_false
        | cmd hx =>
          obtain ⟨rfl, rfl⟩ := hx
          rw [writer, if_pos rfl] at hw
          obtain rfl := Option.some.inj hw
          rw [Monitor.read, if_pos rfl] at hl
          obtain ⟨-, rfl⟩ := Aftermath.last_store hl
          exact AList.lookup_insert _
      · have hc (y : Text) : c ≠ .set id y := fun he => hc ⟨y, he⟩
        rw [writer_answer ha hc] at hw
        refine lookup_answer ha hc (ih hw ?_)
        have hpass (g : Aftermath Text) : ((aftermaths.cmd g c r).last = some (id, x) →
            g.last = some (id, x)) ∧ ((aftermaths.abort g c r).last = some (id, x) →
            g.last = some (id, x)) := by
          by_cases hset : ∃ id' y, c = .set id' y
          · obtain ⟨id', y, rfl⟩ := hset
            refine ⟨fun h => ?_, fun h => h⟩
            obtain ⟨rfl, rfl⟩ := Aftermath.last_store h
            exact absurd rfl (hc x)
          · have hp := aftermaths_pass (fun id' y he => hset ⟨id', y, he⟩) g r
            exact ⟨hp.1 _, hp.2 _⟩
        cases ha with
        | cmd _ =>
          rw [Monitor.read] at hl
          split at hl
          · exact (hpass _).1 hl
          · exact hl
        | abort _ =>
          rw [Monitor.read] at hl
          split at hl
          · exact (hpass _).2 hl
          · exact hl
    | spawn hp hs => rw [redis_spawn hs, ih hw (hidle hl)]
    | exit hp he => rw [redis_exit he, ih hw (hidle hl)]
    | env he => rw [(tick_quiet he).tasks, ih hw hl]
    | halt hh => cases hl

end

/-- A turn that has set its record to running leaves it in another status when it ends, unless
the close in the handler of `RetriableError` was cut short, or the engine has raised what is no
`Exception`, and no cancellation either. -/
theorem leftover_law {S : Setup Event} {tr : List (SysLabel Text Event)} {s : SysConfig Text Event}
    {i : Nat} {b : Except Exc Returned} {id : String} {x : Text}
    (hr : Run (system Text S) writesSucceed (.idle .init) tr s)
    (hp : s.pool i = some (.worker, .ret b)) (hx : (aftermaths.read i tr).last = some (id, x)) :
    ∃ t : Task, parse x = some t ∧ (t.status.Settled ↔ (aftermaths.read i tr).isLost = false) ∧
      (t.status = .running ↔ (aftermaths.read i tr).isLost = true) ∧
      (writer id tr = some i → s.world.redis.record id = some t) := by
  have hA : Tracked (watched S aftermaths writesSucceed Aftermath.At :
    Assertion (orchestrator Text S spawn exit) Progress) World.init := aftermaths_tracked
  obtain ⟨ds, hi⟩ := hA.sound.holds hr
  have hover : (aftermaths.read i tr).Over := by
    have hat := hi.inv i
    rwa [hi.safe i _ _ hp] at hat
  have hrecord {t : Task} (ht : parse x = some t) (hw : writer id tr = some i) :
      s.world.redis.record id = some t := by
    rw [Redis.record, lookup_of_writer hr hw hx]
    exact ht
  generalize aftermaths.read i tr = g at hover hx
  rcases hover with (rfl | ⟨id', y, rfl, t, ht, hs⟩) | ⟨id', y, rfl | rfl, t, ht, hs⟩
  · cases hx
  · cases hx
    exact ⟨t, ht, ⟨fun _ => rfl, fun _ => hs⟩,
      ⟨fun h => absurd h hs.not_running, fun h => by cases h⟩, hrecord ht⟩
  · cases hx
    exact ⟨t, ht, ⟨fun h => absurd hs h.not_running, fun h => by cases h⟩,
      ⟨fun _ => rfl, fun _ => hs⟩, hrecord ht⟩
  · cases hx
    exact ⟨t, ht, ⟨fun h => absurd hs h.not_running, fun h => by cases h⟩,
      ⟨fun _ => rfl, fun _ => hs⟩, hrecord ht⟩

end

/-- The id and the status of the record that the turn of a returning worker has written last,
whether the turn is lost, and whether nobody else has written the record since. -/
def leaves (i : Nat) (o : List (SysLabel Task String) × SysConfig Task String) :
    Option (String × TaskStatus × Bool × Bool) :=
  match returning i o.2, (aftermaths.read i o.1).last with
  | some _, some (id, t) =>
    some (id, t.status, (aftermaths.read i o.1).isLost, writer id o.1 = some i)
  | _, _ => none

theorem leaves_eq {i : Nat} {tr : List (SysLabel Task String)} {s : SysConfig Task String}
    {id : String} {st : TaskStatus} {lost own : Bool}
    (h : leaves i (tr, s) = some (id, st, lost, own)) :
    ∃ b t, s.pool i = some (.worker, .ret b) ∧ (aftermaths.read i tr).last = some (id, t) ∧
      t.status = st ∧ (aftermaths.read i tr).isLost = lost ∧
      decide (writer id tr = some i) = own := by
  unfold leaves at h
  split at h
  · rename_i b id' t hb hl
    obtain ⟨rfl, hrest⟩ := Prod.mk.inj (Option.some.inj h)
    obtain ⟨hst, hrest⟩ := Prod.mk.inj hrest
    obtain ⟨hlost, hown⟩ := Prod.mk.inj hrest
    exact ⟨b, t, pool_of_returning hb, hl, hst, hlost, hown⟩
  · cases h

/-- A turn that goes well, up to its end. -/
def wellEnded : Schedule :=
  start ++ create 1 ++ [.spawn 2 .worker] ++ turnToStream 2 0 ++ go 2 8

theorem leftover_law_success : ∃ tr s b id x, DemoRun writesSucceed tr s ∧
    s.pool 2 = some (.worker, .ret b) ∧ (aftermaths.read 2 tr).last = some (id, x) ∧
    ∃ t, s.world.redis.record id = some t ∧ t.status.Settled := by
  obtain ⟨tr, s, hr, hs⟩ := demoDriver.drive_observe writesSucceed (.idle .init) wellEnded
    (leaves 2) (show _ = some ("u", .success, false, true) by decide)
  obtain ⟨b, x, hp, hl, -, hlost, hown⟩ := leaves_eq hs
  obtain ⟨t, -, hsettled, -, hrecord⟩ := leftover_law hr hp hl
  exact ⟨tr, s, b, _, x, hr, hp, hl, t, hrecord (of_decide_eq_true hown), hsettled.2 hlost⟩

/-- The engine raises a `RetriableError`, and the worker is cancelled while it closes the stream. -/
def cutInHandler : Schedule :=
  start ++ create 1 ++ [.spawn 2 .worker] ++ go 2 9 ++
    [.cmd 2 (.yields ⟨[], .error ⟨.retriable, "again"⟩⟩)] ++ go 2 1 ++
    [.env (.threadStart 0), .env (.threadEnd 0)] ++ go 2 1 ++ [.abort 2 .auto] ++ go 2 3

theorem not_leftover_law : ¬∀ tr s b id x, DemoRun writesSucceed tr s →
    s.pool 2 = some (.worker, .ret b) → (aftermaths.read 2 tr).last = some (id, x) →
    writer id tr = some 2 → ∃ t, s.world.redis.record id = some t ∧ t.status.Settled := by
  intro h
  obtain ⟨tr, s, hr, hs⟩ := demoDriver.drive_observe writesSucceed (.idle .init) cutInHandler
    (leaves 2) (show _ = some ("u", .running, true, true) by decide)
  obtain ⟨b, x, hp, hl, hst, -, hown⟩ := leaves_eq hs
  have hw : writer "u" tr = some 2 := of_decide_eq_true hown
  obtain ⟨t, ht, hsettled⟩ := h tr s b "u" x hr hp hl hw
  rw [Redis.record, lookup_of_writer hr hw hl] at ht
  obtain rfl : x = t := Option.some.inj ht
  exact hsettled.not_running hst

end Orchestrator
