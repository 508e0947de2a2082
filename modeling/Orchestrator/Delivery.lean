import Orchestrator.Footprint
import Orchestrator.Ownership

namespace Orchestrator
open Concurrency Async
set_option autoImplicit true

variable [TaskJson Text] {S : Setup Event} {F B : Prop} {i : Nat}

/-- What an exception leaves behind in a worker. -/
structure Failed (F : Prop) (e : Exc) (d : Hold) : Prop where
  cls : e.cls ≠ .lockStolen
  stage : d.stage = some .serving
  lost : F ∨ d = .free

theorem Failed.cancelled (hF : F) (he : e.cls = .cancelled) (hd : d.stage = some .serving) :
    Failed F e d :=
  ⟨by rw [he]; decide, hd, .inl hF⟩

/-- How `_run_locked` can leave a running task to `_execute`. -/
def Raised (F : Prop) (e : Exc) (s : Task) (d : Hold) : Prop :=
  e.cls = .lockStolen ∧ d = .owns s ∧ s.status = .running ∨ Failed F e d

theorem wp_transition {Q : Unit → Task → Hold → Prop} {X : Exc → Task → Hold → Prop}
    (hQ : ∀ now, Q () (s.transition now st detail) d) :
    Wp (ownership Text S F B) i (Worker.transition st detail) Q X s d := by
  apply Wp.bind
  apply wp_sure rfl
  intro now
  exact Wp.mutate _ (hQ now)

theorem wp_close {Q : Unit → Task → Hold → Prop} {X : Exc → Task → Hold → Prop}
    (hQ : Q () s d) (hX : ∀ e, F → e.cls = .cancelled → X e s d) :
    Wp (ownership Text S F B) i Worker.close Q X s d := by
  apply Wp.bind
  apply Wp.object
  unfold EventBus.close
  exact wp_plain rfl (fun _ => hQ) hX

/-- The exception of a retriable attempt: the task goes back as interrupted or fails. -/
theorem wp_handleRetriable (hs : s.status = .running) (exc : Exc) :
    Wp (ownership Text S F B) i (Worker.handleRetriable S exc)
      (fun _ _ d => d = .free) (fun e _ d => Failed F e d) s (.owns s) := by
  unfold Worker.handleRetriable
  apply Wp.bind
  apply Wp.object
  split
  · apply Wp.bind
    apply Wp.mutate
    apply Wp.bind
    apply wp_transition
    intro now
    apply Wp.bind
    refine wp_update ⟨rfl, rfl, rfl⟩ ?_ ?_
    · rw [Task.transition_status, hs]
      exact .interrupt
    · apply Wp.bind
      apply Wp.object
      exact wp_enqueue (.inr rfl) rfl fun e d hF he hd => .cancelled hF he hd
  · apply Wp.bind
    apply wp_transition
    intro now
    apply Wp.bind
    refine wp_update ⟨rfl, rfl, rfl⟩ ?_ ?_
    · rw [Task.transition_status, hs]
      exact .fail
    · exact wp_close rfl fun e hF he => .cancelled hF he rfl

theorem wp_stream {Q : Unit → Task → Hold → Prop} {X : Exc → Task → Hold → Prop}
    (hQ : Q () s d) (hX : ∀ e, F ∨ e.isException = true → X e s d) :
    Wp (ownership Text S F B) i (Worker.stream S mode) Q X s d := by
  unfold Worker.stream
  apply Wp.bind
  apply Wp.object
  apply Wp.bind
  apply wp_quiet rfl
  · intro it
    apply Wp.bind
    apply wp_sure rfl
    intro n
    apply Wp.bind
    apply Wp.attempt
    apply wp_quiet rfl
    · intro _
      exact Wp.pure _ hQ
    · intro e he
      have he : F ∨ e.cls ≠ .timeout ∧ e.isException = true := by
        rcases he with ⟨hF, _⟩ | he
        · exact .inl hF
        · exact he
      dsimp only
      split
      · rename_i ht
        exact Wp.raise _ (hX _ (.inl (he.resolve_right fun h => h.1 ht)))
      · exact Wp.raise _ (hX _ (he.imp_right And.right))
  · rintro e (⟨hF, _, _⟩ | he)
    · exact hX e (.inl hF)
    · exact hX e he

theorem wp_apply {Q : TaskMode → Task → Hold → Prop} {X : Exc → Task → Hold → Prop}
    (hQ : ∀ now, Q mode ({ s with mode := mode }.touch now) d) :
    Wp (ownership Text S F B) i (Scheduler.apply mode) Q X s d := by
  apply Wp.bind
  apply wp_sure rfl
  intro now
  apply Wp.bind
  apply Wp.mutate
  exact Wp.pure _ (hQ now)

theorem wp_hasCheckpoint {Q : Bool → Task → Hold → Prop} {X : Exc → Task → Hold → Prop}
    (hQ : ∀ b, Q b s d) :
    Wp (ownership Text S F B) i (Scheduler.hasCheckpoint project) Q X s d := by
  apply wp_check
  apply Wp.bind
  apply wp_quiet rfl
  · intro _
    apply wp_quiet rfl
    · exact hQ
    · exact fun e he => ⟨isException_of_raises rfl id he, hQ false⟩
  · exact fun e he => ⟨isException_of_raises rfl id he, hQ false⟩

/-- The scheduler sets the mode, or raises a `ValueError`. -/
theorem wp_decide :
    Wp (ownership Text S F B) i (Scheduler.decide S)
      (fun _ s' d' => d' = d ∧ s.SameTask s' ∧ s'.status = s.status)
      (fun e s' d' => d' = d ∧ s' = s ∧ e.cls = .value) s d := by
  have happly (mode : TaskMode) : Wp (ownership Text S F B) i (Scheduler.apply mode)
      (fun _ s' d' => d' = d ∧ s.SameTask s' ∧ s'.status = s.status)
      (fun e s' d' => d' = d ∧ s' = s ∧ e.cls = .value) s d :=
    wp_apply fun now => ⟨rfl, ⟨rfl, rfl, rfl⟩, rfl⟩
  unfold Scheduler.decide
  apply Wp.bind
  apply Wp.object
  split
  · apply Wp.bind
    apply wp_hasCheckpoint
    intro b
    split
    · exact happly _
    · exact Wp.raise _ ⟨rfl, rfl, rfl⟩
  · apply Wp.bind
    apply wp_check
    apply wp_quiet rfl
    · intro b
      split
      · apply Wp.bind
        apply wp_hasCheckpoint
        intro b
        split
        · exact happly _
        · exact happly _
      · exact happly _
    · intro e he
      exact ⟨isException_of_raises rfl id he, happly _⟩

theorem wp_finish (hs : s.status = .running) (ht : st = .success ∨ st = .failed)
    {X : Exc → Task → Hold → Prop} (hX : ∀ e s d, Failed F e d → X e s d) :
    Wp (ownership Text S F B) i
      (do Worker.transition st detail; Worker.update S; Worker.close)
      (fun _ _ d => d = .free) X s (.owns s) := by
  have hterm : st.isTerminal = true := by rcases ht with rfl | rfl <;> rfl
  apply Wp.bind
  apply wp_transition
  intro now
  apply Wp.bind
  refine wp_update ⟨rfl, rfl, rfl⟩ ?_ ?_
  · rw [Task.transition_status, hs]
    rcases ht with rfl | rfl
    · exact .succeed
    · exact .fail
  · rw [holdOf_terminal hterm]
    exact wp_close rfl fun e hF he => hX _ _ _ (.cancelled hF he rfl)

theorem wp_attemptStream (hs : s.status = .running) :
    Wp (ownership Text S F B) i (Worker.attemptStream S mode)
      (fun _ _ d => d = .free) (Raised F) s (.owns s) := by
  unfold Worker.attemptStream
  apply Wp.bind
  apply Wp.attempt
  apply Wp.bind
  apply wp_stream
  · apply Wp.bind
    apply wp_transition
    intro now
    refine wp_update ⟨rfl, rfl, rfl⟩ ?_ ?_
    · rw [Task.transition_status, hs]
      exact .succeed
    · rw [holdOf_terminal rfl]
      exact wp_close rfl fun e hF he => .inr (.cancelled hF he rfl)
  · intro e he
    dsimp only
    split
    · exact wp_finish hs (.inr rfl) fun _ _ _ h => .inr h
    · apply Wp.bind
      apply wp_close
      · exact Wp.mono (wp_handleRetriable hs e) (fun _ _ _ h => h) fun _ _ _ h => .inr h
      · exact fun e hF he => .inr (.cancelled hF he rfl)
    · rename_i hc
      exact Wp.raise _ (.inl ⟨hc, rfl, hs⟩)
    · rename_i hc
      have hF : F := he.resolve_right (by simp [Exc.isException, hc])
      exact Wp.raise _ (.inr ⟨by rw [hc]; decide, rfl, .inl hF⟩)
    · rename_i hc
      have hF : F := he.resolve_right (by simp [Exc.isException, hc])
      apply Wp.bind
      apply wp_transition
      intro now
      apply Wp.bind
      refine wp_update ⟨rfl, rfl, rfl⟩ ?_ ?_
      · rw [Task.transition_status, hs]
        exact .interrupt
      · apply Wp.bind
        apply wp_close
        · exact Wp.raise _ (.inr (.cancelled hF hc (holdOf_stage _)))
        · exact fun e hF he => .inr (.cancelled hF he (holdOf_stage _))
    · exact wp_finish hs (.inr rfl) fun _ _ _ h => .inr h

theorem wp_reject (hs : Ready s) :
    Wp (ownership Text S F B) i (Worker.reject S detail) (fun _ _ d => d = .free)
      (Raised F) s (.owns s) := by
  apply Wp.bind
  apply wp_transition
  intro now
  apply Wp.bind
  refine wp_update ⟨rfl, rfl, rfl⟩ ?_ ?_
  · rw [Task.transition_status]
    rcases hs with hs | hs <;> rw [hs]
    · exact .reject
    · exact .abandon
  · rw [holdOf_terminal rfl]
    exact wp_close rfl fun e hF he => .inr (.cancelled hF he rfl)

theorem wp_runLocked (hs : Ready s) :
    Wp (ownership Text S F B) i (Worker.runLocked S) (fun _ _ d => d = .free)
      (Raised F) s (.owns s) := by
  unfold Worker.runLocked
  apply Wp.bind
  apply Wp.object
  apply Wp.bind
  apply Wp.attempt
  apply wp_quiet rfl
  · intro _
    apply Wp.bind
    apply Wp.attempt
    apply Wp.mono wp_decide
    · rintro mode s' d' ⟨rfl, hst, he⟩
      apply Wp.bind
      apply wp_transition
      intro now
      apply Wp.bind
      refine wp_update hst ?_ ?_
      · rw [Task.transition_status]
        rcases hs with hs | hs <;> rw [hs]
        · exact .start
        · exact .resume
      · exact wp_attemptStream rfl
    · rintro e s' d' ⟨rfl, rfl, he⟩
      simp only [he, ↓reduceIte]
      exact wp_reject hs
  · intro e he
    simp only [isException_of_raises rfl id he, ↓reduceIte]
    exact wp_reject hs

theorem wp_guarded (hs : Ready s) :
    Wp (ownership Text S F B) i (Worker.guarded S) (fun _ _ d => d = .free)
      (fun e _ d => Failed F e d) s (.owns s) := by
  unfold Worker.guarded
  apply Wp.bind
  apply Wp.attempt
  apply Wp.mono (wp_runLocked hs)
  · exact fun _ _ _ h => Wp.pure _ h
  · rintro e s' d' (⟨he, rfl, hr⟩ | hf)
    · simp only [he, ↓reduceIte]
      apply Wp.bind
      apply Wp.object
      apply Wp.bind
      apply wp_sure rfl
      intro _
      exact wp_handleRetriable hr _
    · simp only [hf.cls, ↓reduceIte]
      exact Wp.raise _ hf

/-- The clean-up works on the lock alone. -/
theorem wp_cleanUp {Q : Unit → Task → Hold → Prop} {X : Exc → Task → Hold → Prop}
    (hQ : Q () s d) (hX : ∀ e, F → e.cls = .cancelled → X e s d) :
    Wp (ownership Text S F B) i (Worker.cleanUp project τ) Q X s d := by
  have hrel : Wp (ownership Text S F B) i (releaseLock project τ) Q X s d :=
    wp_plain rfl (fun _ => hQ) hX
  apply Wp.bind
  apply wp_sure rfl
  intro _
  apply Wp.bind
  apply Wp.attempt
  apply wp_quiet rfl
  · exact fun _ => hrel
  · exact fun _ _ => hrel

theorem wp_execute (hs : Ready s) :
    Wp (ownership Text S F B) i (Worker.execute S) (fun _ _ d => d = .free)
      (fun e _ d => Failed F e d) s (.owns s) := by
  unfold Worker.execute
  apply Wp.bind
  apply Wp.object
  apply Wp.bind
  apply wp_sure rfl
  intro τ
  apply Wp.bind
  apply wp_plain rfl
  · intro b
    cases b with
    | true =>
      apply Wp.bind
      apply wp_sure rfl
      intro _
      apply Wp.ensure
      apply Wp.mono (wp_guarded hs)
      · rintro _ s' d' rfl
        exact wp_cleanUp rfl fun e hF he => .cancelled hF he rfl
      · intro e s' d' hf
        exact wp_cleanUp hf fun e' hF he => .cancelled hF he hf.stage
    | false =>
      apply Wp.bind
      apply wp_sure rfl
      intro _
      apply Wp.bind
      apply wp_enqueue hs
      · exact wp_plain rfl (fun _ => rfl) fun e hF he => .cancelled hF he rfl
      · exact fun e d hF he hd => .cancelled hF he hd
  · exact fun e hF he => .cancelled hF he rfl

/-- The hold that an exception leaves behind. -/
structure Left (F : Prop) (d : Hold) : Prop where
  stage : d.stage = some .serving
  lost : F ∨ d = .free

theorem wp_turn {s : Unit} :
    Wp (ownership Text S F B) i (Worker.turn S) (fun _ _ d => d = .free)
      (fun _ _ d => Left F d) s .free := by
  unfold Worker.turn
  apply Wp.bind
  apply wp_dequeue
  · intro o ho
    cases o with
    | none => exact Wp.pure _ rfl
    | some t =>
      apply Wp.on
      exact Wp.mono (wp_execute (ho t rfl)) (fun _ _ _ h => h)
        fun _ _ _ h => ⟨h.stage, h.lost⟩
  · exact fun e d hF he hd => ⟨hd, .inl hF⟩

theorem wp_newTask {body : TaskCreateRequest} {Q : Task → σ → Hold → Prop}
    {X : Exc → σ → Hold → Prop} (hQ : ∀ t : Task, t.status = .pending → Q t s d) :
    Wp (ownership Text S F B) i (newTask body) Q X s d := by
  apply Wp.bind
  apply wp_sure rfl
  intro id
  apply Wp.bind
  apply wp_sure rfl
  intro createdAt
  apply Wp.bind
  apply wp_sure rfl
  intro updatedAt
  exact Wp.pure _ (hQ _ rfl)

theorem wp_save {s : σ} {t : Task} (ht : Live t) :
    Wp (ownership Text S F B) i (TaskStore.save S t) (fun _ _ d => d = .owns t)
      (fun _ _ d => Left F d) s .free := by
  have hX (e : Exc) (d : Hold) (hF : F) (_ : e.cls = .cancelled)
      (hd : d.stage = some .serving) : Left F d := ⟨hd, .inl hF⟩
  unfold TaskStore.save
  apply Wp.bind
  apply wp_setNx ht
  · simp only [↓reduceIte]
    apply Wp.bind
    apply wp_plain rfl
    · intro _
      split
      · exact wp_plain rfl (fun _ => rfl) fun e hF he => hX e _ hF he rfl
      · exact Wp.pure _ rfl
    · exact fun e hF he => hX e _ hF he rfl
  · simp only [Bool.false_eq_true, ↓reduceIte]
    exact Wp.raise _ ⟨rfl, .inr rfl⟩
  · exact hX

theorem frames_lookup (d : Hold) :
    (ownership Text S F B).Frames i Cmd.lookup d := by
  intro c hc tr w ds l r w' hi _ ha hok
  apply quiet_answer _ hi ha hok
  cases c with
  | smembers _ | mget _ | getDigest _ | get _ => rfl
  | _ => exact absurd hc not_false

theorem wp_createTask {s : σ} (body : TaskCreateRequest) :
    Wp (ownership Text S F B) i (createTask S body) (fun _ _ d => d = .free)
      (fun _ _ d => Left F d) s .free := by
  unfold createTask
  apply Wp.bind
  apply Wp.mono (Wp.of_within (asks_findExisting body) (frames_lookup _))
  · rintro o s d rfl
    cases o with
    | some t => exact Wp.pure _ rfl
    | none =>
      apply Wp.bind
      apply wp_newTask
      intro t ht
      have hr : Ready t := .inl ht
      apply Wp.bind
      apply Wp.mono (wp_save hr.live)
      · rintro _ s d rfl
        apply Wp.bind
        apply wp_enqueue hr
        · exact Wp.pure _ rfl
        · exact fun e d hF _ hd => ⟨hd, .inl hF⟩
      · exact fun _ _ _ h => h
  · rintro e s d rfl
    exact ⟨rfl, .inr rfl⟩

theorem wp_recoverKey {s : σ} {id : String} (hd : d.stage = some .recovering) :
    Wp (ownership Text S F B) i (recoverKey S id)
      (fun _ _ d => d.stage = some .recovering) (fun _ _ d => d.stage = some .recovering) s
      d := by
  unfold recoverKey
  apply Wp.bind
  apply wp_scanGet hd
  · intro o ho
    cases o with
    | none => exact Wp.pure _ rfl
    | some raw =>
      dsimp only
      split
      · exact Wp.pure _ rfl
      · rename_i t ht
        have hB : B := ho.resolve_right nofun
        split
        · exact Wp.pure _ rfl
        · rename_i hterm
          have hscan : scanOf (some raw) = .scans (some t) := by
            simp only [scanOf, Option.bind_some, parse_eq_some.2 ht, Option.filter_some, hterm,
              Bool.not_false, ↓reduceIte]
          rw [hscan]
          split
          · rename_i hr
            apply Wp.bind
            apply wp_sure rfl
            intro now
            apply Wp.bind
            refine wp_scanUpdate hB hr (t.sameTask_transition ..).symm
              (t.transition_status ..) ?_
            apply Wp.bind
            exact wp_scanEnqueue hB (.inr (t.transition_status ..)) (Wp.pure _ rfl)
              fun _ _ h => h
          · rename_i hr
            apply Wp.bind
            refine wp_scanEnqueue hB ?_ (Wp.pure _ rfl) fun _ _ h => h
            cases hs : t.status with
            | pending => exact .inl hs
            | interrupted => exact .inr hs
            | running => exact absurd hs hr
            | success | failed => simp [Task.isTerminal, TaskStatus.isTerminal, hs] at hterm
  · exact fun _ => hd

theorem wp_recoverKeys {s : σ} (ids : List String) (n : Nat)
    (hd : d.stage = some .recovering) :
    Wp (ownership Text S F B) i (recoverKeys S ids n)
      (fun _ _ d => d.stage = some .recovering) (fun _ _ d => d.stage = some .recovering) s
      d := by
  induction ids generalizing s d n with
  | nil => exact Wp.pure _ hd
  | cons id ids ih =>
    apply Wp.bind
    apply Wp.mono (wp_recoverKey hd)
    · exact fun _ _ _ h => ih _ h
    · exact fun _ _ _ h => h

/-- What a process of each kind has when it has returned. -/
def Kind.Leaves (F : Prop) : Kind → Except Exc Returned → Hold → Prop
  | .recover, _, d => d.stage = some .recovering
  | _, .ok _, d => d = .free
  | _, .error _, d => Left F d

def Kind.hold : Kind → Hold
  | .recover => .scans none
  | _ => .free

theorem safe_body (q : Kind) :
    Safe (ownership Text S F B) i (q.Leaves F) ((system Text S).body q) q.hold := by
  apply Wp.start
  cases q with
  | recover =>
    apply Wp.bind
    apply Wp.bind
    apply wp_plain rfl
    · intro pages
      exact Wp.mono (wp_recoverKeys _ _ rfl) (fun _ _ _ h => Wp.pure _ h) fun _ _ _ h => h
    · exact fun _ _ _ => rfl
  | worker =>
    apply Wp.bind
    exact Wp.mono wp_turn (fun _ _ _ h => Wp.pure _ h) fun _ _ _ h => h
  | request body =>
    apply Wp.bind
    exact Wp.mono (wp_createTask body) (fun _ _ _ h => Wp.pure _ h) fun _ _ _ h => h

section
variable {tr : List (SysLabel Text Event)} {w w' : World Text Event} {ds : Nat → Hold}

theorem Owned.idle (h : Ledger F B tr w fun _ => none) : Owned F B tr w fun _ => .gone :=
  ⟨h, .idle _, fun _ _ h => nomatch h⟩

theorem Owned.stopped (h : Owned F B tr w ds) (hw : w.stage = .stopped) (j : Nat) :
    ds j = .gone := by
  have hj := h.stages.now j
  cases hd : ds j with
  | gone => rfl
  | free | owns _ | scans _ =>
    have := hj _ (by rw [hd]; rfl)
    rw [hw] at this
    cases this

theorem Owned.recovered (h : Owned F B tr w ds) (hd : (ds i).stage = some .recovering)
    (hw : w'.redis = w.redis) (q : Kind) (b : Except Exc Returned) :
    Owned F B (.exit i q b :: tr) w' (Function.update ds i .gone) := by
  have hgone : Function.update ds i .gone = fun _ => .gone := by
    funext j
    by_cases hj : j = i
    · rw [hj, Function.update_self]
    · rw [Function.update_of_ne hj, h.stages.alone i j hd hj]
  have hfresh : B ∨ w'.stage = .serving ∨ w'.redis.tasks = ∅ := by
    rw [hw]
    refine h.ledger.fresh.imp_right fun hf => .inr (hf.resolve_left fun hs => ?_)
    rw [h.stages.now i _ hd] at hs
    cases hs
  have hl := h.ledger.leave (i := i) (.inr (by rw [h.alone hd])) hw hfresh (.inr ⟨q, b, rfl⟩)
  rw [h.alone hd, Function.update_eq_self (f := fun _ => none)] at hl
  rw [hgone]
  exact .idle hl

theorem spawn_owned {q : Kind} (h : Owned F B tr w ds) (hi : ds i = .gone)
    (hs : spawn q w w') :
    Kept w (.spawn i q) w' ∧ Owned F B (.spawn i q :: tr) w' (Function.update ds i q.hold) := by
  have hown : Hold.owned ∘ Function.update ds i q.hold = Hold.owned ∘ ds := by
    have hq : q.hold.owned = (Hold.owned ∘ ds) i := by
      rw [Function.comp_apply, hi]
      cases q <;> rfl
    rw [Function.comp_update, hq, Function.update_eq_self]
  have hsilent : Silent (.spawn i q : SysLabel Text Event) := fun _ => ⟨rfl, rfl⟩
  have hserve (hw : w.stage = .serving ∧ w' = w) (hq : q.hold = .free) :
      Kept w (.spawn i q) w' ∧
        Owned F B (.spawn i q :: tr) w' (Function.update ds i q.hold) := by
    obtain ⟨hst, rfl⟩ := hw
    refine ⟨.of_same (.refl _), ⟨hown ▸ h.ledger.same (.refl _) (.inr hsilent), ?_, ?_⟩⟩
    · exact h.stages.serve hst i (by rw [hq]; rfl)
    · intro j t hj
      rcases update_eq_iff.1 hj with ⟨_, he⟩ | ⟨_, hj⟩
      · rw [hq] at he
        cases he
      · exact h.scanned j t hj
  cases q with
  | recover =>
    obtain ⟨hst, rfl⟩ := hs
    have hgone : ds = fun _ => .gone := funext (h.stopped hst)
    have hfresh : B ∨ w.redis.tasks = ∅ := by
      refine h.ledger.fresh.imp_right fun hf => hf.resolve_left fun hs => ?_
      rw [hst] at hs
      cases hs
    refine ⟨.of_record rfl, ⟨?_, ?_, ?_⟩⟩
    · rw [hown]
      exact h.ledger.restage rfl rfl (hfresh.imp_right .inr) (.inr hsilent)
    · rw [hgone]
      exact .scan i none
    · intro j t hj
      rw [hgone] at hj
      rcases update_eq_iff.1 hj with ⟨_, he⟩ | ⟨_, he⟩ <;> cases he
  | worker => exact hserve hs rfl
  | request body => exact hserve hs rfl

theorem exit_owned {q : Kind} {b : Except Exc Returned} {o : Option Kind} (h : Owned F B tr w ds)
    (hi : q.Leaves F b (ds i)) (he : exit q b w w' o) :
    Kept w (.exit i q b) w' ∧ Owned F B (.exit i q b :: tr) w'
      (Function.update ds i ((o.map Kind.hold).getD .gone)) := by
  have hserve (hl : Left F (ds i)) (d : Hold) (hd : d = .gone ∨ d = .free) :
      Kept w (.exit i q b) w ∧ Owned F B (.exit i q b :: tr) w (Function.update ds i d) := by
    have hown : d.owned = none := by rcases hd with rfl | rfl <;> rfl
    have hleave : Ledger F B (.exit i q b :: tr) w
        (Function.update (Hold.owned ∘ ds) i none) := by
      refine h.ledger.leave (hl.lost.imp_right fun hf => ?_) rfl h.ledger.fresh
        (.inr ⟨q, b, rfl⟩)
      rw [Function.comp_apply, hf]
      rfl
    refine ⟨.of_same (.refl _), ⟨?_, ?_, ?_⟩⟩
    · rw [Function.comp_update, hown]
      exact hleave
    · rcases hd with rfl | rfl
      · exact h.stages.leave i
      · exact h.stages.update hl.stage.symm
    · intro j t hj
      rcases update_eq_iff.1 hj with ⟨_, he⟩ | ⟨_, hj⟩
      · rcases hd with rfl | rfl <;> cases he
      · exact h.scanned j t hj
  have hfree (hf : ds i = .free) : Left F (ds i) := ⟨by rw [hf]; rfl, .inr hf⟩
  cases q with
  | recover =>
    obtain ⟨rfl, hw⟩ : o = none ∧ w'.redis = w.redis := by
      cases b <;> obtain ⟨rfl, rfl⟩ := he <;> exact ⟨rfl, rfl⟩
    exact ⟨.of_record (by rw [hw]), h.recovered hi hw _ _⟩
  | worker =>
    cases b with
    | ok r =>
      obtain ⟨rfl, rfl⟩ := he
      apply hserve (hfree hi)
      cases w'.running with
      | true => exact .inr rfl
      | false => exact .inl rfl
    | error e =>
      obtain ⟨rfl, rfl⟩ := he
      exact hserve hi _ (.inl rfl)
  | request body =>
    obtain ⟨rfl, rfl⟩ := he
    cases b with
    | ok r => exact hserve (hfree hi) _ (.inl rfl)
    | error e => exact hserve hi _ (.inl rfl)

/-- Whatever runs, a task is in the queue or with one process, and its status changes the legal
way. -/
theorem ownership_sound (hB : B → F) :
    (ownership Text S F B).Sound .gone (Kind.Leaves F) World.init where
  start := .idle (.init hB)
  spawn := by
    intro tr w ds i q w' h hi hs _
    obtain ⟨hk, h'⟩ := spawn_owned h hi hs
    exact ⟨hk, _, h', safe_body q⟩
  exit := by
    intro tr w ds i q b w' o h hi he _
    obtain ⟨hk, h'⟩ := exit_owned h hi he
    refine ⟨hk, ?_⟩
    cases o with
    | none => exact h'
    | some q' => exact ⟨_, h', safe_body q'⟩
  env := by
    intro tr w ds e w' h he _
    have hs := tick_quiet he
    exact ⟨.of_same hs, h.same hs (.inr fun _ => ⟨rfl, rfl⟩)⟩
  halt := by
    intro tr w ds w' h hh hB
    have hw : w'.redis = w.redis := by rw [hh]
    exact ⟨.of_record (by rw [hw]), .idle (h.ledger.halt hB hw)⟩

end

end Orchestrator
