import Orchestrator.Records
import Orchestrator.Replicas

namespace Orchestrator
open Concurrency Async
set_option autoImplicit true

theorem isException_of_external_raises {c : Cmd Text Event} {e : Exc} (hc : c.external = true)
    (he : c.raises e) : e.isException = true := by
  rcases he with he | ⟨he, _⟩ | ⟨he, _⟩
  · exact isException_of_external hc he
  · cases c with
    | factoryGet _ _ | projectExists _ | setProjectName _ | checkpointExists _ => cases he
    | _ => cases hc
  · cases c with
    | factoryGet _ _ | projectExists _ | setProjectName _ | checkpointExists _ => cases he
    | _ => cases hc

section
variable [TaskJson Text]

/-- Why a request is answered with this task. -/
inductive Task.Serves (S : Setup Event) (body : TaskCreateRequest) (t : Task) : Prop where
  | created (hp : t.projectName = body.projectName) (hr : t.requirement = body.requirement)
      (hw : t.workDir = body.workDir.getD "") (hc : t.configJson = body.configJson.getD "")
      (hs : t.status = .pending)
  | unfinished (hp : t.projectName = body.projectName)
      (hs : t.status = .pending ∨ t.status = .running)
  | digest (h : digestKey S t.projectName t.requirement =
      digestKey S body.projectName body.requirement)

/-- The response shows a task that answers the request, and whose record has the same origin. -/
def Redis.Vouches (S : Setup Event) (r : Redis Text) (body : TaskCreateRequest)
    (response : TaskResponse) : Prop :=
  ∃ t, response = .fromTask t ∧ t.Coherent S ∧ t.Serves S body ∧ r.Knows t

theorem Redis.Vouches.step {S : Setup Event} {r r' : Redis Text} {body : TaskCreateRequest}
    {response : TaskResponse} (h : r.Vouches S body response) (hr : r.Remembers r') :
    r'.Vouches S body response := by
  obtain ⟨t, hresp, ht, hserves, hk⟩ := h
  exact ⟨t, hresp, ht, hserves, hk.step hr⟩

/-- The ghost value of a process is what it has read. -/
def coherence (Text : Type) [TaskJson Text] (S : Setup Event)
    (sp : Kind → World Text Event → World Text Event → Prop)
    (ex : Kind → Except Exc Returned → World Text Event → World Text Event → Option Kind → Prop) :
    Assertion (orchestrator Text S sp ex) (List Task) where
  ok := anyway
  inv _ w ds := w.redis.Coherent S ∧ ∀ i, ∀ t ∈ ds i, w.redis.Knows t
  guar w l w' := w.redis.Remembers w'.redis ∧ ∀ i body response,
    l = .exit i (.request body) (.ok (.response response)) → w'.redis.Vouches S body response

namespace Coherence
variable {S : Setup Event} {sp : Kind → World Text Event → World Text Event → Prop}
  {ex : Kind → Except Exc Returned → World Text Event → World Text Event → Option Kind → Prop}
  {i : Nat} {d : List Task}

theorem wp_command {c : Cmd Text Event} {Q : c.Reply → σ → List Task → Prop}
    {X : Exc → σ → List Task → Prop}
    (h : ∀ w w' l r, w.redis.Coherent S → (∀ t ∈ d, w.redis.Knows t) →
      (orchestrator Text S sp ex).Answer i c r w w' l →
      w'.redis.Coherent S ∧ w.redis.Remembers w'.redis ∧
        ∃ d', (∀ t ∈ d', w'.redis.Knows t) ∧ Outcome Q X (r, s) d') :
    Wp (coherence Text S sp ex) i (ask c) Q X s d := by
  apply Wp.call
  rintro tr w ds l r w' ⟨hc, hk⟩ rfl ha _
  obtain ⟨hc', hr, d', hd, ho⟩ := h w w' l r hc (hk i) ha
  refine ⟨⟨hr, ?_⟩, d', ⟨hc', fun j t ht => ?_⟩, ho⟩
  · intro j body response hl
    cases ha <;> cases hl
  · by_cases hj : j = i
    · subst hj
      rw [Function.update_self] at ht
      exact hd t ht
    · rw [Function.update_of_ne hj] at ht
      exact (hk j t ht).step hr

/-- A command that leaves the tasks and their indices as they are. What a reply tells may enter the
ghost value. -/
theorem wp_learn {c : Cmd Text Event} (hq : c.quiet = true) (hi : c.indexFree = true)
    {Q : c.Reply → σ → List Task → Prop} {X : Exc → σ → List Task → Prop}
    (hQ : ∀ a w w', w.redis.Coherent S → (∀ t ∈ d, w.redis.Knows t) → exec c (.ok a) w w' →
      ∃ d', (∀ t ∈ d', w.redis.Knows t) ∧ Q a s d')
    (hX : ∀ e, c.raises e → X e s d) : Wp (coherence Text S sp ex) i (ask c) Q X s d := by
  apply wp_command
  intro w w' l r hc hk ha
  have hs := answer_sameTasks hq ha
  have hx := answer_sameIndex hi ha
  have hr : w.redis.Remembers w'.redis := Redis.remembers_of_tasks hs.tasks
  refine ⟨hc.same hs.tasks hs.queue hx.projectTasks hx.digests, hr, ?_⟩
  cases r with
  | ok a =>
    rcases answer_effect ha with ⟨b, hb, he⟩ | ⟨⟨e, he⟩, _⟩
    · obtain rfl := he a rfl
      obtain ⟨d', hd, hq⟩ := hQ a w w' hc hk hb
      exact ⟨d', fun t ht => (hd t ht).step hr, hq⟩
    · cases he
  | error e => exact ⟨d, fun t ht => (hk t ht).step hr, hX e (raises_of_answer ha)⟩

theorem wp_aside {c : Cmd Text Event} (hq : c.quiet = true) (hi : c.indexFree = true)
    {Q : c.Reply → σ → List Task → Prop} {X : Exc → σ → List Task → Prop} (hQ : ∀ a, Q a s d)
    (hX : ∀ e, c.raises e → X e s d) : Wp (coherence Text S sp ex) i (ask c) Q X s d :=
  wp_learn hq hi (fun a _ _ _ hk _ => ⟨d, hk, hQ a⟩) hX

/-- A command that cannot raise either. -/
theorem wp_sure {c : Cmd Text Event} (hq : c.quiet = true) (hi : c.indexFree = true)
    (hs : c.sure = true) (hr : c.onRedis = false) {Q : c.Reply → σ → List Task → Prop}
    {X : Exc → σ → List Task → Prop} (hQ : ∀ a, Q a s d) :
    Wp (coherence Text S sp ex) i (ask c) Q X s d :=
  wp_aside hq hi hQ fun _ he => absurd he (not_raises_of_sure hs hr)

/-- A command that writes. -/
theorem wp_write {c : Cmd Text Event} {f : Redis Text → Redis Text}
    (hf : ∀ w w' l r, (orchestrator Text S sp ex).Answer i c r w w' l →
      w' = w.onRedis f ∨ (∃ e, r = .error e) ∧ Untouched w w')
    (hc : ∀ r, r.Coherent S → (∀ t ∈ d, r.Knows t) → (f r).Coherent S ∧ r.Remembers (f r))
    {Q : c.Reply → σ → List Task → Prop} {X : Exc → σ → List Task → Prop} (hQ : ∀ a, Q a s d)
    (hX : ∀ e, c.raises e → X e s d) : Wp (coherence Text S sp ex) i (ask c) Q X s d := by
  apply wp_command
  intro w w' l r h hk ha
  have hw : w'.redis.Coherent S ∧ w.redis.Remembers w'.redis := by
    rcases hf w w' l r ha with rfl | ⟨_, hu⟩
    · exact hc w.redis h hk
    · rw [hu.redis]
      exact ⟨h, .refl _⟩
  refine ⟨hw.1, hw.2, d, fun t ht => (hk t ht).step hw.2, ?_⟩
  cases r with
  | ok a => exact hQ a
  | error e => exact hX e (raises_of_answer ha)

/-- The record of a task in hand is written. -/
theorem wp_set {t : Task} (ht : t.Coherent S) (hk : ∃ u ∈ d, t.SameOrigin u)
    {Q : Unit → σ → List Task → Prop} {X : Exc → σ → List Task → Prop} (hQ : Q () s d)
    (hX : ∀ e, e.cls = .other → X e s d) :
    Wp (coherence Text S sp ex) i (ask (.set t.taskId (modelDumpJson t))) Q X s d := by
  apply wp_write fun _ _ _ _ => set_effect
  · intro r hc hd
    obtain ⟨u, hu, ho⟩ := hk
    have hsame (v : Task) (hv : r.record t.taskId = some v) : t.SameOrigin v :=
      ho.trans ((hd u hu).sameOrigin (hc.knows hv) (ho.taskId.symm.trans (hc.record hv).2.1.symm))
    exact ⟨hc.set ht hsame, Redis.remembers_set hsame⟩
  · exact fun _ => hQ
  · exact fun e he => hX e (other_of_raises rfl (by exact not_false) he)

theorem wp_push {t : Task} (ht : t.Coherent S) (hready : Ready t) (hk : ∃ u ∈ d, t.SameOrigin u)
    {Q : Unit → σ → List Task → Prop} {X : Exc → σ → List Task → Prop} (hQ : Q () s d)
    (hX : ∀ e, e.cls ≠ .lockStolen → X e s d) :
    Wp (coherence Text S sp ex) i (TaskQueue.enqueue t) Q X s d := by
  apply wp_write fun _ _ _ _ => lpush_effect
  · intro r hc hd
    obtain ⟨u, hu, ho⟩ := hk
    exact ⟨hc.lpush ht hready ((hd u hu).of_sameOrigin ho), Redis.remembers_of_tasks rfl⟩
  · exact fun _ => hQ
  · exact fun e he => hX e (not_stolen_of_raises (by exact not_false) he)

theorem wp_clear {h : String} {Q : Unit → σ → List Task → Prop}
    {X : Exc → σ → List Task → Prop} (hQ : Q () s d) (hX : ∀ e, e.cls = .other → X e s d) :
    Wp (coherence Text S sp ex) i (ask (.delDigest h)) Q X s d := by
  apply wp_write (f := (·.setDigest h none))
  · intro w w' l r ha
    rcases answer_effect ha with ⟨_, ⟨_, rfl⟩, _⟩ | ha
    · exact .inl rfl
    · exact .inr ha
  · intro r hc _
    exact ⟨hc.setDigest fun _ hid => (Option.some_ne_none _ hid.symm).elim,
      Redis.remembers_of_tasks rfl⟩
  · exact fun _ => hQ
  · exact fun e he => hX e (other_of_raises rfl (by exact not_false) he)

theorem wp_transition {st : TaskStatus} {detail : String} {t : Task}
    {Q : Unit → Task → List Task → Prop} {X : Exc → Task → List Task → Prop}
    (hQ : ∀ now, Q () (t.transition now st detail) d) :
    Wp (coherence Text S sp ex) i (Worker.transition st detail) Q X t d := by
  apply Wp.bind
  apply wp_sure rfl rfl rfl rfl
  exact fun now => Wp.mutate _ (hQ now)

theorem wp_update {t : Task} (ht : t.Coherent S) (hk : ∃ u ∈ d, t.SameOrigin u)
    {Q : Unit → Task → List Task → Prop} {X : Exc → Task → List Task → Prop} (hQ : Q () t d)
    (hX : ∀ e, e.cls = .other → X e t d) :
    Wp (coherence Text S sp ex) i (Worker.update S) Q X t d := by
  apply Wp.bind
  apply Wp.object
  apply Wp.bind
  apply wp_set ht hk
  · split
    · exact wp_clear hQ hX
    · exact Wp.pure _ hQ
  · exact hX

theorem wp_close {t : Task} {Q : Unit → Task → List Task → Prop}
    {X : Exc → Task → List Task → Prop} (hQ : Q () t d)
    (hX : ∀ e, e.cls ≠ .lockStolen → X e t d) :
    Wp (coherence Text S sp ex) i Worker.close Q X t d := by
  apply Wp.bind
  apply Wp.object
  apply wp_aside rfl rfl
  · exact fun _ => hQ
  · exact fun e he => hX e (not_stolen_of_raises (by exact not_false) he)

/-- An exception after which the task in hand may be put back. -/
def Escapes (S : Setup Event) (e : Exc) (t : Task) (d : List Task) : Prop :=
  e.cls = .lockStolen → t.Held S d ∧ t.Decided

theorem wp_reject {t : Task} {detail : String} (h : t.Held S d)
    (ht : ∀ now, (t.transition now .failed detail).Accounted S) :
    Wp (coherence Text S sp ex) i (Worker.reject S detail) (fun _ _ _ => True) (Escapes S) t d := by
  apply Wp.bind
  apply wp_transition
  intro now
  apply Wp.bind
  apply wp_update ⟨ht now, h.retries⟩ (h.transition now _ _).known
  · exact wp_close trivial fun e he hs => absurd hs he
  · intro e he hs
    cases hs.symm.trans he

/-- A task that has been started is given up. -/
theorem wp_fail {t : Task} (h : t.Held S d) (hm : t.Decided) (detail : String) :
    Wp (coherence Text S sp ex) i (Worker.reject S detail) (fun _ _ _ => True) (Escapes S) t d :=
  wp_reject h fun now => .failed rfl (hm.transition now _ _)

theorem wp_handleRetriable {t : Task} (h : t.Held S d) (hm : t.Decided) (exc : Exc) :
    Wp (coherence Text S sp ex) i (Worker.handleRetriable S exc) (fun _ _ _ => True) (Escapes S)
      t d := by
  apply Wp.bind
  apply Wp.object
  split
  · rename_i ht
    have hu := h.retry hm ht
    apply Wp.bind
    apply Wp.mutate
    apply Wp.bind
    apply wp_transition
    intro now
    have hc : Task.Coherent S (Task.transition { t with retryCount := t.retryCount + 1 } now
        .interrupted s!"retry {t.retryCount + 1}: {exc.msg}") :=
      ⟨.retried rfl ((hm.retry _).transition now _ _) (Nat.succ_pos _) exc.msg rfl, hu.retries⟩
    apply Wp.bind
    apply wp_update hc (hu.transition now _ _).known
    · apply Wp.bind
      apply Wp.object
      apply wp_push hc (.inr rfl) (hu.transition now _ _).known
      · trivial
      · exact fun e he hs => absurd hs he
    · intro e he hs
      cases hs.symm.trans he
  · exact wp_fail h hm _

theorem wp_stream (mode : TaskMode) (t : Task) :
    Wp (coherence Text S sp ex) i (Worker.stream S mode) (fun _ s d' => s = t ∧ d' = d)
      (fun _ s d' => s = t ∧ d' = d) t d := by
  apply Wp.bind
  apply Wp.object
  apply Wp.bind
  apply wp_aside rfl rfl
  · intro it
    apply Wp.bind
    apply wp_sure rfl rfl rfl rfl
    intro n
    apply Wp.bind
    apply Wp.attempt
    apply wp_aside rfl rfl
    · exact fun _ => Wp.pure _ ⟨rfl, rfl⟩
    · intro e _
      dsimp only
      split
      · exact Wp.raise _ ⟨rfl, rfl⟩
      · exact Wp.raise _ ⟨rfl, rfl⟩
  · exact fun _ _ => ⟨rfl, rfl⟩

theorem wp_attemptStream {t : Task} (mode : TaskMode) (h : t.Held S d) (hm : t.Decided) :
    Wp (coherence Text S sp ex) i (Worker.attemptStream S mode) (fun _ _ _ => True) (Escapes S)
      t d := by
  -- The object is decided all along, whatever status it has been given.
  have htry : Wp (coherence Text S sp ex) i (do
      Worker.stream S mode
      Worker.transition .success ""
      Worker.update S) (fun _ s d' => s.Held S d' ∧ s.Decided)
      (fun _ s d' => s.Held S d' ∧ s.Decided) t d := by
    apply Wp.bind
    apply Wp.mono (wp_stream mode t)
    · rintro _ s d ⟨rfl, rfl⟩
      apply Wp.bind
      apply wp_transition
      intro now
      have hs := h.transition now .success ""
      have hms := hm.transition now .success ""
      apply wp_update ⟨.succeeded rfl hms rfl, hs.retries⟩ hs.known
      · exact ⟨hs, hms⟩
      · exact fun _ _ => ⟨hs, hms⟩
    · rintro e s d ⟨rfl, rfl⟩
      exact ⟨h, hm⟩
  apply Wp.bind
  apply Wp.attempt
  apply Wp.mono htry
  · rintro _ s d ⟨hs, hms⟩
    exact wp_close trivial fun e he hs => absurd hs he
  · rintro e s d ⟨hs, hms⟩
    dsimp only
    split
    case h_1 => exact wp_fail hs hms _
    case h_2 =>
      apply Wp.bind
      apply wp_close
      · exact wp_handleRetriable hs hms e
      · exact fun e he hs => absurd hs he
    case h_3 | h_4 => exact Wp.raise _ fun _ => ⟨hs, hms⟩
    case h_5 he =>
      apply Wp.bind
      apply wp_transition
      intro now
      apply Wp.bind
      apply wp_update ⟨.cancelled rfl (hms.transition now _ _) rfl, hs.retries⟩
        (hs.transition now _ _).known
      · apply Wp.bind
        apply wp_close
        · apply Wp.raise
          intro hl
          cases hl.symm.trans he
        · exact fun e he hs => absurd hs he
      · intro e he hl
        cases hl.symm.trans he
    case h_6 => exact wp_fail hs hms _

theorem wp_decide {t : Task} (h : t.Held S d) :
    Wp (coherence Text S sp ex) i (Scheduler.decide S)
      (fun mode s d' => d' = d ∧ s.Held S d ∧ s.Decided ∧ s.mode = mode)
      (fun e s d' => d' = d ∧ s = t ∧ e.cls = .value ∧ t.requirement = "" ∧
        e.msg = s!"requirement 为空，但 project={S.repr t.projectName} 不存在可恢复的 checkpoint，无法执行任何操作")
      t d := by
  have happly (mode : TaskMode) (hm : mode ≠ .unknown) (hr : t.requirement = "" → mode = .resume)
      {X : Exc → Task → List Task → Prop} : Wp (coherence Text S sp ex) i (Scheduler.apply mode)
        (fun mode s d' => d' = d ∧ s.Held S d ∧ s.Decided ∧ s.mode = mode) X t d := by
    apply Wp.bind
    apply wp_sure rfl rfl rfl rfl
    intro now
    exact Wp.bind (Wp.mutate _ (Wp.pure _ ⟨rfl, h.decide hm hr now, ⟨hm, hr⟩, rfl⟩))
  have hcheckpoint {Q : Bool → Task → List Task → Prop} {X : Exc → Task → List Task → Prop}
      (hQ : ∀ b, Q b t d) :
      Wp (coherence Text S sp ex) i (Scheduler.hasCheckpoint t.projectName) Q X t d := by
    apply wp_check
    apply Wp.bind
    apply wp_aside rfl rfl
    · intro _
      apply wp_aside rfl rfl
      · exact hQ
      · exact fun e he => ⟨isException_of_external_raises rfl he, hQ false⟩
    · exact fun e he => ⟨isException_of_external_raises rfl he, hQ false⟩
  unfold Scheduler.decide
  apply Wp.bind
  apply Wp.object
  split
  · rename_i hr
    apply Wp.bind
    apply hcheckpoint
    intro b
    split
    · exact happly .resume (by decide) fun _ => rfl
    · exact Wp.raise _ ⟨rfl, rfl, rfl, hr, rfl⟩
  · rename_i hr
    apply Wp.bind
    apply wp_check
    apply wp_aside rfl rfl
    · intro b
      split
      · apply Wp.bind
        apply hcheckpoint
        intro b
        split
        · exact happly .resume (by decide) fun h => absurd h hr
        · exact happly .secondary (by decide) fun h => absurd h hr
      · exact happly .new (by decide) fun h => absurd h hr
    · intro e he
      exact ⟨isException_of_external_raises rfl he, happly .new (by decide) fun h => absurd h hr⟩

theorem wp_runLocked {t : Task} (h : t.Held S d) :
    Wp (coherence Text S sp ex) i (Worker.runLocked S) (fun _ _ _ => True) (Escapes S) t d := by
  -- A task that no stream was started for is rejected, and one that was fails.
  have hreject {detail : String}
      (hd : ∀ now, (t.transition now .failed detail).Unstartable S) :
      Wp (coherence Text S sp ex) i (Worker.reject S detail) (fun _ _ _ => True) (Escapes S)
        t d := by
    apply wp_reject h
    intro now
    rcases h.decided with hm | hu
    · exact .failed rfl (hm.transition now _ _)
    · exact .rejected rfl ⟨hu.mode, hu.retryCount⟩ (hd now)
  apply Wp.bind
  apply Wp.object
  apply Wp.bind
  apply Wp.attempt
  apply wp_aside rfl rfl
  · intro _
    apply Wp.bind
    apply Wp.attempt
    apply Wp.mono (wp_decide h)
    · rintro mode s d ⟨rfl, hs, hm, rfl⟩
      apply Wp.bind
      apply wp_transition
      intro now
      have hst := hs.transition now .running s!"mode={s.mode.value}"
      have hmt := hm.transition now .running s!"mode={s.mode.value}"
      apply Wp.bind
      apply wp_update ⟨.started rfl hmt rfl, hst.retries⟩ hst.known
      · exact wp_attemptStream _ hst hmt
      · intro e he hl
        cases hl.symm.trans he
    · rintro e s d ⟨rfl, rfl, he, hr, hmsg⟩
      dsimp only
      rw [if_pos he]
      exact hreject fun _ => .checkpoint hr hmsg
  · intro e he
    dsimp only
    rw [if_pos (isException_of_external_raises rfl he)]
    exact hreject fun _ => .engine e.msg rfl

theorem wp_guarded {t : Task} (h : t.Held S d) :
    Wp (coherence Text S sp ex) i (Worker.guarded S) (fun _ _ _ => True) (fun _ _ _ => True)
      t d := by
  apply Wp.bind
  apply Wp.attempt
  apply Wp.mono (wp_runLocked h)
  · exact fun _ _ _ _ => Wp.pure _ trivial
  · intro e s d he
    dsimp only
    split
    · rename_i hl
      obtain ⟨hs, hm⟩ := he hl
      apply Wp.bind
      apply Wp.object
      apply Wp.bind
      apply wp_sure rfl rfl rfl rfl
      intro _
      exact Wp.mono (wp_handleRetriable hs hm _) (fun _ _ _ h => h) fun _ _ _ _ => trivial
    · exact Wp.raise _ trivial

theorem frames_aside : (coherence Text S sp ex).Frames i
    (fun c : Cmd Text Event => c.quiet = true ∧ c.indexFree = true) d := by
  rintro c ⟨hq, hi⟩ tr w ds l r w' ⟨hc, hk⟩ rfl ha _
  have hs := answer_sameTasks hq ha
  have hx := answer_sameIndex hi ha
  have hr : w.redis.Remembers w'.redis := Redis.remembers_of_tasks hs.tasks
  refine ⟨⟨hr, fun j body response hl => ?_⟩, ?_, fun j t ht => (hk j t ht).step hr⟩
  · cases ha <;> cases hl
  · exact hc.same hs.tasks hs.queue hx.projectTasks hx.digests

theorem wp_execute {t : Task} (ht : t.Coherent S) (hready : Ready t) (h : t ∈ d) :
    Wp (coherence Text S sp ex) i (Worker.execute S) (fun _ _ _ => True) (fun _ _ _ => True)
      t d := by
  have hheld : t.Held S d := ⟨⟨t, h, .refl t⟩, ht.retries, ht.accounted.decided⟩
  have hclean (p τ : String) (s : Task) (d : List Task) :
      Wp (coherence Text S sp ex) i (Worker.cleanUp p τ) (fun _ _ _ => True) (fun _ _ _ => True)
        s d :=
    Wp.mono (Wp.of_within (asks_cleanUp (fun _ => ⟨rfl, rfl⟩) (fun _ => ⟨rfl, rfl⟩)
      (fun _ _ => ⟨rfl, rfl⟩) p τ) frames_aside) (fun _ _ _ _ => trivial) fun _ _ _ _ => trivial
  apply Wp.bind
  apply Wp.object
  apply Wp.bind
  apply wp_sure rfl rfl rfl rfl
  intro τ
  apply Wp.bind
  apply wp_aside rfl rfl
  · intro acquired
    split
    · apply Wp.bind
      apply wp_sure rfl rfl rfl rfl
      intro _
      apply Wp.ensure
      apply Wp.mono (wp_guarded hheld)
      · exact fun _ s d _ => hclean _ _ s d
      · exact fun _ s d _ => hclean _ _ s d
    · apply Wp.bind
      apply wp_sure rfl rfl rfl rfl
      intro _
      apply Wp.bind
      apply wp_push ht hready hheld.known
      · exact wp_aside rfl rfl (fun _ => trivial) fun _ _ => trivial
      · exact fun _ _ => trivial
  · exact fun _ _ => trivial

theorem wp_turn {s : Unit} : Wp (coherence Text S sp ex) i (Worker.turn S) (fun _ _ _ => True)
    (fun _ _ _ => True) s d := by
  apply Wp.bind
  apply Wp.bind
  apply wp_command
  intro w w' l r hc hk ha
  rcases brpop_effect ha with ⟨x, hx, rfl, hr⟩ | ⟨hr, hu⟩
  · have hq : x ∈ w.redis.queue := List.mem_of_getLast? hx
    obtain ⟨t, rfl, ht, hready, hkt⟩ := hc.queued x hq
    refine ⟨hc.pop, Redis.remembers_of_tasks rfl, t :: d, ?_, ?_⟩
    · intro u hu
      rcases List.mem_cons.1 hu with rfl | hu
      · exact hkt
      · exact hk u hu
    · cases r with
      | ok o =>
        obtain rfl := hr o rfl
        simp only [Outcome, parse_dump]
        exact Wp.pure _ (Wp.on t (wp_execute ht hready List.mem_cons_self))
      | error e => trivial
  · refine ⟨by rwa [hu.redis], Redis.remembers_of_tasks (by rw [hu.redis]), d, fun t ht => ?_, ?_⟩
    · rw [hu.redis]
      exact hk t ht
    · cases r with
      | ok o =>
        cases o with
        | none => exact Wp.pure _ (Wp.pure _ trivial)
        | some x => exact absurd rfl (hr x)
      | error e => trivial

/-- What is read under an id is the text of a task that is known. -/
theorem wp_get {id : String} {Q : Option Text → σ → List Task → Prop}
    {X : Exc → σ → List Task → Prop} (hnone : Q none s d)
    (hsome : ∀ t, t.taskId = id → t.Coherent S → (∀ u ∈ d, u.taskId = id → t.SameOrigin u) →
      Q (some (modelDumpJson t)) s (t :: d))
    (hX : ∀ e, X e s d) : Wp (coherence Text S sp ex) i (ask (.get id)) Q X s d := by
  apply wp_learn rfl rfl
  · rintro o w w' hc hk ⟨ho, _⟩
    obtain rfl := Except.ok.inj ho
    cases hx : w.redis.tasks.lookup id with
    | none => exact ⟨d, hk, hnone⟩
    | some x =>
      obtain ⟨t, rfl, hid, ht, hkt⟩ := hc.lookup hx
      refine ⟨t :: d, fun u hu => ?_, hsome t hid ht fun u hu hu' => ?_⟩
      · rcases List.mem_cons.1 hu with rfl | hu
        · exact hkt
        · exact hk u hu
      · exact hkt.sameOrigin (hk u hu) (hid.trans hu'.symm)
  · exact fun e _ => hX e

theorem wp_members {p : String} {Q : List String → σ → List Task → Prop}
    {X : Exc → σ → List Task → Prop}
    (hQ : ∀ ids d', (∀ id ∈ ids, ∃ t ∈ d', t.taskId = id ∧ t.projectName = p) → Q ids s d')
    (hX : ∀ e, X e s d) : Wp (coherence Text S sp ex) i (ask (.smembers p)) Q X s d := by
  apply wp_learn rfl rfl
  · rintro ids w w' hc _ ⟨⟨_, ho, hp⟩, _⟩
    obtain rfl := Except.ok.inj ho
    refine ⟨ids.filterMap w.redis.record, fun t ht => ?_, hQ _ _ fun id hid => ?_⟩
    · obtain ⟨id, _, ht⟩ := List.mem_filterMap.1 ht
      exact hc.knows ht
    · obtain ⟨t, ht, hname⟩ := hc.listed p id (hp.mem_iff.1 hid)
      exact ⟨t, List.mem_filterMap.2 ⟨id, hid, ht⟩, (hc.record ht).2.1, hname⟩
  · exact fun e _ => hX e

/-- The texts that are read are those of tasks that are known. -/
theorem wp_records {ids : List String} {Q : List (Option Text) → σ → List Task → Prop}
    {X : Exc → σ → List Task → Prop}
    (hQ : ∀ raws d', (∀ t ∈ raws.filterMap (·.bind parse), t ∈ d' ∧ t.Coherent S ∧
      t.taskId ∈ ids ∧ ∀ u ∈ d, u.taskId = t.taskId → t.SameOrigin u) → Q raws s d')
    (hX : ∀ e, X e s d) : Wp (coherence Text S sp ex) i (ask (.mget ids)) Q X s d := by
  apply wp_learn rfl rfl
  · rintro raws w w' hc hk ⟨ho, _⟩
    obtain rfl := Except.ok.inj ho
    refine ⟨ids.filterMap w.redis.record, fun t ht => ?_, hQ _ _ fun t ht => ?_⟩
    · obtain ⟨id, _, ht⟩ := List.mem_filterMap.1 ht
      exact hc.knows ht
    · rw [List.filterMap_map] at ht
      obtain ⟨id, hid, hrec⟩ := List.mem_filterMap.1 ht
      have hrec : w.redis.record id = some t := hrec
      obtain ⟨_, rfl, hcoh⟩ := hc.record hrec
      exact ⟨ht, hcoh, hid, fun u hu hu' => (hc.knows hrec).sameOrigin (hk u hu) hu'.symm⟩
  · exact fun e _ => hX e

theorem wp_digest {h : String} {Q : Option String → σ → List Task → Prop}
    {X : Exc → σ → List Task → Prop} (hnone : Q none s d)
    (hsome : ∀ t, digestKey S t.projectName t.requirement = h →
      Q (some t.taskId) s (t :: d))
    (hX : ∀ e, X e s d) : Wp (coherence Text S sp ex) i (ask (.getDigest h)) Q X s d := by
  apply wp_learn rfl rfl
  · rintro o w w' hc hk ⟨ho, _⟩
    obtain rfl := Except.ok.inj ho
    cases hx : w.redis.digests h with
    | none => exact ⟨d, hk, hnone⟩
    | some id =>
      obtain ⟨t, ht, hkey⟩ := hc.digested h id hx
      obtain ⟨_, rfl, _⟩ := hc.record ht
      refine ⟨t :: d, fun u hu => ?_, hsome t hkey⟩
      rcases List.mem_cons.1 hu with rfl | hu
      · exact hc.knows ht
      · exact hk u hu
  · exact fun e _ => hX e

theorem wp_findIncomplete {p : String} {s : σ} :
    Wp (coherence Text S sp ex) i (TaskStore.findIncomplete p)
      (fun o _ d' => ∀ t, o = some t → t ∈ d' ∧ t.Coherent S ∧ t.projectName = p ∧
        (t.status = .pending ∨ t.status = .running))
      (fun _ _ _ => True) s d := by
  apply Wp.bind
  apply Wp.bind
  apply wp_members
  · intro ids d' hids
    split
    · exact Wp.pure _ (Wp.pure _ nofun)
    · apply Wp.bind
      apply wp_records
      · intro raws d'' hraws
        apply Wp.pure
        apply Wp.pure
        intro t ht
        obtain ⟨hm, hc, hid, ho⟩ := hraws t (List.mem_of_find?_eq_some ht)
        obtain ⟨u, hu, hid, hp⟩ := hids t.taskId hid
        refine ⟨hm, hc, (ho u hu hid).projectName.trans hp, ?_⟩
        have hst := List.find?_some ht
        simpa only [Bool.or_eq_true, decide_eq_true_eq] using hst
      · exact fun _ => trivial
  · exact fun _ => trivial

theorem wp_findByDigest {p r : String} {s : σ} :
    Wp (coherence Text S sp ex) i (TaskStore.findByDigest S p r)
      (fun o _ d' => ∀ t, o = some t → t ∈ d' ∧ t.Coherent S ∧
        digestKey S t.projectName t.requirement = digestKey S p r)
      (fun _ _ _ => True) s d := by
  apply Wp.bind
  apply wp_digest
  · exact Wp.pure _ nofun
  · intro u hu
    apply Wp.bind
    apply wp_get
    · exact Wp.pure _ nofun
    · intro t hid ht ho
      simp only [validate_dump]
      apply Wp.pure
      intro v hv
      obtain rfl := Option.some.inj hv
      have hsame := ho u List.mem_cons_self rfl
      exact ⟨List.mem_cons_self, ht, by rw [hsame.projectName, hsame.requirement, hu]⟩
    · exact fun _ => trivial
  · exact fun _ => trivial

theorem wp_findExisting {body : TaskCreateRequest} {s : σ} :
    Wp (coherence Text S sp ex) i (findExisting S body)
      (fun o _ d' => ∀ t, o = some t → t ∈ d' ∧ t.Coherent S ∧ t.Serves S body)
      (fun _ _ _ => True) s d := by
  apply Wp.bind
  apply Wp.mono wp_findIncomplete
  · intro o s d' ho
    cases o with
    | some t =>
      apply Wp.pure
      intro u hu
      obtain ⟨hm, hc, hp, hst⟩ := ho u hu
      exact ⟨hm, hc, .unfinished hp hst⟩
    | none =>
      apply Wp.mono wp_findByDigest
      · intro o s d' ho u hu
        obtain ⟨hm, hc, hk⟩ := ho u hu
        exact ⟨hm, hc, .digest hk⟩
      · exact fun _ _ _ h => h
  · exact fun _ _ _ h => h

/-- A task that is saved is known from then on. -/
theorem wp_save {t : Task} (ht : t.Coherent S) {Q : Unit → σ → List Task → Prop}
    (hQ : Q () s (t :: d)) :
    Wp (coherence Text S sp ex) i (TaskStore.save S t) Q (fun _ _ _ => True) s d := by
  have hindex : Wp (coherence Text S sp ex) i (do
      ask (.sadd t.projectName t.taskId)
      if t.requirement ≠ "" then
        ask (.setDigest (digestKey S t.projectName t.requirement) t.taskId)) Q (fun _ _ _ => True)
      s (t :: d) := by
    apply Wp.bind
    apply wp_write fun _ _ _ _ => sadd_effect
    · exact fun r hc hk => ⟨hc.sadd (hk t List.mem_cons_self), Redis.remembers_of_tasks rfl⟩
    · intro _
      split
      · apply wp_write (f := (·.setDigest (digestKey S t.projectName t.requirement) t.taskId))
        · intro w w' l r ha
          rcases answer_effect ha with ⟨_, ⟨_, rfl⟩, _⟩ | ha
          · exact .inl rfl
          · exact .inr ha
        · intro r hc hk
          refine ⟨hc.setDigest fun id hid => ?_, Redis.remembers_of_tasks rfl⟩
          obtain rfl := Option.some.inj hid
          obtain ⟨u, hu, ho⟩ := hk t List.mem_cons_self
          exact ⟨u, hu, by rw [ho.projectName, ho.requirement]⟩
        · exact fun _ => hQ
        · exact fun _ _ => trivial
      · exact Wp.pure _ hQ
    · exact fun _ _ => trivial
  apply Wp.bind
  apply wp_command
  intro w w' l r hc hk ha
  rcases setNx_effect ha with ⟨hid, rfl, hr⟩ | ⟨hr, hu⟩
  · have hnew (u : Task) (hu : w.redis.record t.taskId = some u) : t.SameOrigin u :=
      absurd (AList.mem_keys.1 (Redis.mem_keys_of_record hu)) hid
    have hrem := Redis.remembers_set hnew
    refine ⟨hc.set ht hnew, hrem, t :: d, fun u hu => ?_, ?_⟩
    · rcases List.mem_cons.1 hu with rfl | hu
      · exact Redis.knows_set w.redis u
      · exact (hk u hu).step hrem
    · rcases r with e | _ | _
      · trivial
      · exact absurd rfl hr
      · exact hindex
  · refine ⟨by rwa [hu.redis], Redis.remembers_of_tasks (by rw [hu.redis]), d, fun u hu' => ?_, ?_⟩
    · rw [hu.redis]
      exact hk u hu'
    · rcases r with e | _ | _
      · trivial
      · exact Wp.bind (Wp.raise _ trivial)
      · exact absurd rfl hr

theorem wp_createTask {body : TaskCreateRequest} {s : σ} :
    Wp (coherence Text S sp ex) i (createTask S body)
      (fun response _ d' => ∃ t ∈ d', response = .fromTask t ∧ t.Coherent S ∧ t.Serves S body)
      (fun _ _ _ => True) s d := by
  apply Wp.bind
  apply Wp.mono wp_findExisting
  · intro o s d ho
    cases o with
    | some t =>
      obtain ⟨hm, hc, hs⟩ := ho t rfl
      exact Wp.pure _ ⟨t, hm, rfl, hc, hs⟩
    | none =>
      apply Wp.bind
      apply Wp.bind
      apply wp_sure rfl rfl rfl rfl
      intro taskId
      apply Wp.bind
      apply wp_sure rfl rfl rfl rfl
      intro createdAt
      apply Wp.bind
      apply wp_sure rfl rfl rfl rfl
      intro updatedAt
      apply Wp.pure
      apply Wp.bind
      have hc : Task.Coherent S {
          taskId := taskId
          projectName := body.projectName
          requirement := body.requirement
          workDir := body.workDir.getD ""
          configJson := body.configJson.getD ""
          createdAt := createdAt
          updatedAt := updatedAt } := ⟨.created rfl ⟨rfl, rfl⟩ rfl, Int.le_max_right _ _⟩
      apply wp_save hc
      apply Wp.bind
      apply wp_push hc (.inl rfl) ⟨_, List.mem_cons_self, .refl _⟩
      · exact Wp.pure _ ⟨_, List.mem_cons_self, rfl, hc, .created rfl rfl rfl rfl rfl⟩
      · exact fun _ _ => trivial
  · exact fun _ _ _ h => h

theorem wp_recoverKey {id : String} {s : σ} :
    Wp (coherence Text S sp ex) i (recoverKey S id) (fun _ _ _ => True) (fun _ _ _ => True)
      s d := by
  apply Wp.bind
  apply wp_get
  · exact Wp.pure _ trivial
  · intro t _ ht _
    simp only [validate_dump]
    cases hl : t.isTerminal with
    | true => exact Wp.pure _ trivial
    | false =>
      simp only [Bool.false_eq_true, ↓reduceIte]
      split
      · rename_i hs
        apply Wp.bind
        apply wp_sure rfl rfl rfl rfl
        intro now
        have hc : Task.Coherent S (t.transition now .interrupted
            "crash-recovery: worker lost during execution") :=
          ⟨.lost rfl ((ht.accounted.of_running hs).transition now _ _) rfl, ht.retries⟩
        have hk : ∃ u ∈ t :: d, Task.SameOrigin (t.transition now .interrupted
            "crash-recovery: worker lost during execution") u :=
          ⟨t, List.mem_cons_self, t.sameOrigin_transition now _ _⟩
        have hpush : Wp (coherence Text S sp ex) i (do
            TaskQueue.enqueue (t.transition now .interrupted
              "crash-recovery: worker lost during execution")
            return true) (fun _ _ _ => True) (fun _ _ _ => True) s (t :: d) :=
          Wp.bind (wp_push hc (.inr rfl) hk (Wp.pure _ trivial) fun _ _ => trivial)
        apply Wp.bind
        apply Wp.bind
        apply wp_set hc hk
        · split
          · exact wp_clear hpush fun _ _ => trivial
          · exact Wp.pure _ hpush
        · exact fun _ _ => trivial
      · rename_i hs
        exact Wp.bind (wp_push ht (Task.ready_of_not hl hs) ⟨t, List.mem_cons_self, .refl t⟩
          (Wp.pure _ trivial) fun _ _ => trivial)
  · exact fun _ => trivial

theorem wp_recoverKeys {ids : List String} {n : Nat} {s : σ} :
    Wp (coherence Text S sp ex) i (recoverKeys S ids n) (fun _ _ _ => True) (fun _ _ _ => True)
      s d := by
  induction ids generalizing n s d with
  | nil => exact Wp.pure _ trivial
  | cons id ids ih =>
    apply Wp.bind
    exact Wp.mono wp_recoverKey (fun _ _ _ _ => ih) fun _ _ _ h => h

/-- What a request that returns has read of its answer. -/
def Answer (S : Setup Event) : Kind → Except Exc Returned → List Task → Prop
  | .request body, .ok (.response response), d =>
    ∃ t ∈ d, response = .fromTask t ∧ t.Coherent S ∧ t.Serves S body
  | _, _, _ => True

theorem safe_body (q : Kind) :
    Safe (coherence Text S sp ex) i (Answer S q) ((orchestrator Text S sp ex).body q) d := by
  apply Wp.start
  cases q with
  | recover =>
    apply Wp.bind
    apply Wp.bind
    apply wp_aside rfl rfl
    · exact fun _ => Wp.mono wp_recoverKeys (fun _ _ _ _ => Wp.pure _ trivial) fun _ _ _ h => h
    · exact fun _ _ => trivial
  | worker =>
    apply Wp.bind
    exact Wp.mono wp_turn (fun _ _ _ _ => Wp.pure _ trivial) fun _ _ _ h => h
  | request body =>
    apply Wp.bind
    exact Wp.mono wp_createTask (fun _ _ _ h => Wp.pure _ h) fun _ _ _ _ => trivial

/-- Any rule for the start and the end of processes that leaves Redis alone. -/
theorem sound {w₀ : World Text Event} (hw : w₀.redis.Coherent S)
    (hsp : ∀ q w w', sp q w w' → w'.redis = w.redis)
    (hex : ∀ q b w w' o, ex q b w w' o → w'.redis = w.redis) :
    (coherence Text S sp ex).Sound [] (Answer S) w₀ := by
  have hsame {w w' : World Text Event} {ds : Nat → List Task} {l : SysLabel Text Event} {i : Nat}
      (hi : w.redis.Coherent S ∧ ∀ i, ∀ t ∈ ds i, w.redis.Knows t) (h : w'.redis = w.redis) :
      w.redis.Remembers w'.redis ∧ w'.redis.Coherent S ∧
        ∀ j, ∀ t ∈ Function.update ds i [] j, w'.redis.Knows t := by
    rw [h]
    refine ⟨.refl _, hi.1, fun j t ht => ?_⟩
    by_cases hj : j = i
    · rw [hj, Function.update_self] at ht
      cases ht
    · rw [Function.update_of_ne hj] at ht
      exact hi.2 j t ht
  constructor
  · exact ⟨hw, fun _ _ ht => nomatch ht⟩
  · intro tr w ds i q w' hi _ hs _
    obtain ⟨hr, hi'⟩ := hsame (i := i) (l := .halt) hi (hsp q w w' hs)
    exact ⟨⟨hr, nofun⟩, [], hi', safe_body q⟩
  · intro tr w ds i q b w' o hi hp he _
    have hredis := hex q b w w' o he
    obtain ⟨hr, hi'⟩ := hsame (i := i) (l := .halt) hi hredis
    refine ⟨⟨hr, ?_⟩, ?_⟩
    · intro j body response hl
      cases hl
      obtain ⟨t, ht, hresp, hc, hs⟩ := hp
      exact ⟨t, hresp, hc, hs, by rw [hredis]; exact hi.2 _ t ht⟩
    · cases o with
      | none => exact hi'
      | some q' => exact ⟨[], hi', safe_body q'⟩
  · intro tr w ds e w' hi he _
    obtain ⟨_, _, _, _, hr⟩ := tick_redis he
    have hrem : w.redis.Remembers w'.redis := Redis.remembers_of_tasks (by rw [hr])
    refine ⟨⟨hrem, fun _ _ _ hl => nomatch hl⟩, ?_, fun j t ht => (hi.2 j t ht).step hrem⟩
    exact hi.1.same (by rw [hr]) (by rw [hr]) (by rw [hr]) (by rw [hr])
  · intro tr w ds w' hi hh _
    obtain rfl := hh
    exact ⟨⟨.refl _, fun _ _ _ hl => nomatch hl⟩, hi.1, fun _ _ ht => nomatch ht⟩

/-- What a request was answered with stays true of the record. -/
theorem vouched {w₀ : World Text Event} {tr : List (SysLabel Text Event)}
    {s : SysConfig Text Event}
    (hA : (coherence Text S sp ex).Sound [] (Answer S) w₀)
    (hr : Run (orchestrator Text S sp ex) anyway (.idle w₀) tr s) {body : TaskCreateRequest}
    {response : TaskResponse}
    (hl : .exit i (.request body) (.ok (.response response)) ∈ tr) :
    s.world.redis.Vouches S body response := by
  induction hr with
  | nil => cases hl
  | cons hr hs hok ih =>
    obtain ⟨hrem, hexit⟩ := hA.guar hr hs hok
    rcases List.mem_cons.1 hl with rfl | hl
    · exact hexit i body response rfl
    · exact (ih hl).step hrem

/-- Replicas that start with an empty Redis. -/
theorem sound_replicas {S : Setup Event} :
    (coherence Text S (fun _ w w' => w' = w) leave).Sound [] (Answer S) World.init :=
  sound Redis.coherent_empty (fun _ _ _ h => by rw [h]) fun _ _ _ _ _ h => by rw [h.1]

end Coherence

variable {S : Setup Event} {tr tr' : List (SysLabel Text Event)} {s s' : SysConfig Text Event}

/-- Whatever any number of replicas do, and wherever they are cut short: every record fits
together, only waiting tasks are queued, and the queue and the indices lead to records that belong
there. -/
theorem coherence_law (hr : Run (replicas Text S) anyway (.idle .init) tr s) :
    s.world.redis.Coherent S := by
  obtain ⟨_, h, _⟩ := Coherence.sound_replicas.inv hr
  exact h

/-- No record is ever lost, and none changes its origin. -/
theorem origin_law (hr : Run (replicas Text S) anyway (.idle .init) tr s)
    (ha : Run.After (replicas Text S) anyway tr s tr' s') :
    s.world.redis.Remembers s'.world.redis := by
  induction ha with
  | refl => exact .refl _
  | cons ha hs hok ih => exact ih.trans (Coherence.sound_replicas.guar (ha.run hr) hs hok).1

/-- A request is answered with a task of its own project or of its own digest, and what the answer
says of the origin of the task stays true of the record. -/
theorem response_law (hr : Run (replicas Text S) anyway (.idle .init) tr s) (i : Nat)
    (body : TaskCreateRequest) (response : TaskResponse)
    (hl : .exit i (.request body) (.ok (.response response)) ∈ tr) :
    s.world.redis.Vouches S body response :=
  Coherence.vouched Coherence.sound_replicas hr hl

end

/-- A worker that meets a `RetriableError` and puts the task back, in one replica. -/
def retriedTurn : Schedule := [.spawn 2 .worker] ++ turnToError 2 0 ++ go 2 5

/-- What a record says of itself. -/
def told (id : String) (s : SysConfig Task String) : Option (TaskStatus × Nat × String) :=
  (s.world.redis.record id).map fun t => (t.status, t.retryCount, t.statusDetail)

theorem coherence_law_retried : ∃ tr s, Run (replicas Task demo) anyway (.idle .init) tr s ∧
    told "u" s = some (.interrupted, 1, "retry 1: ") ∧ s.world.redis.Coherent demo := by
  obtain ⟨tr, s, hr, ht⟩ := replicaDriver.drive_observe anyway (.idle .init)
    (create 1 ++ retriedTurn) (fun o => told "u" o.2)
    (show _ = some (TaskStatus.interrupted, 1, "retry 1: ") by decide)
  exact ⟨tr, s, hr, ht, coherence_law hr⟩

theorem origin_law_retried : ∃ tr s tr' s', Run (replicas Task demo) anyway (.idle .init) tr s ∧
    Run.After (replicas Task demo) anyway tr s tr' s' ∧ told "u" s = some (.pending, 0, "") ∧
    told "u" s' = some (.interrupted, 1, "retry 1: ") ∧
    s.world.redis.Remembers s'.world.redis := by
  obtain ⟨tr, s, tr', s', hr, ha, ho⟩ := replicaDriver.stepper.observe_after anyway anyway
    (.idle .init) (create 1) retriedTurn
    (fun o o' => (told "u" o.2).bind fun x => (told "u" o'.2).map fun y => (x, y))
    (show _ = some ((TaskStatus.pending, 0, ""), (TaskStatus.interrupted, 1, "retry 1: ")) by
      decide)
  obtain ⟨x, hx, ho⟩ := Option.bind_eq_some_iff.1 ho
  obtain ⟨y, hy, ho⟩ := Option.map_eq_some_iff.1 ho
  obtain ⟨rfl, rfl⟩ := Prod.mk.inj ho
  exact ⟨tr, s, tr', s', hr, ha, hx, hy, origin_law hr ha⟩

/-- The process and the project of the latest label, if it is an answer. -/
def answeredLast : List (SysLabel Task String) → Option (Nat × String)
  | .exit i (.request body) (.ok (.response _)) :: _ => some (i, body.projectName)
  | _ => none

theorem answeredLast_eq {tr : List (SysLabel Task String)} {i : Nat} {p : String}
    (h : answeredLast tr = some (i, p)) : ∃ body response,
      .exit i (.request body) (.ok (.response response)) ∈ tr ∧ body.projectName = p := by
  unfold answeredLast at h
  split at h
  · obtain ⟨rfl, rfl⟩ := Prod.mk.inj (Option.some.inj h)
    exact ⟨_, _, List.mem_cons_self, rfl⟩
  · cases h

theorem response_law_created : ∃ tr s body response,
    Run (replicas Task demo) anyway (.idle .init) tr s ∧
    .exit 1 (.request body) (.ok (.response response)) ∈ tr ∧ body.projectName = "p" ∧
    s.world.redis.Vouches demo body response := by
  obtain ⟨tr, s, hr, ho⟩ := replicaDriver.drive_observe anyway (.idle .init) (create 1)
    (fun o => answeredLast o.1) (show _ = some (1, "p") by decide)
  obtain ⟨body, response, hl, hp⟩ := answeredLast_eq ho
  exact ⟨tr, s, body, response, hr, hl, hp, response_law hr 1 body response hl⟩

end Orchestrator
