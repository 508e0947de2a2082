import Orchestrator.Footprint
import Orchestrator.Retries
import Orchestrator.Schedule
import Orchestrator.Concurrency.Monitor

namespace Orchestrator
open Concurrency Async
set_option autoImplicit true

namespace Task

/-- The record of an attempt that has failed. -/
def FailedWith (t : Task) (detail : String) : Prop := t.status = .failed ∧ t.statusDetail = detail

/-- The record of an attempt that a cancellation has ended. -/
def CancelledOut (t : Task) : Prop :=
  t.status = .interrupted ∧ t.statusDetail = "worker cancelled"

/-- The record that `_handle_retriable` makes of one with fewer retries than the limit, or of one
that has used them up. -/
def RetriedAfter (S : Setup Event) (t : Task) (msg : String) : Prop :=
  ((t.retryCount : Int) ≤ S.settings.maxRetries ∧ t.status = .interrupted ∧
    t.statusDetail = s!"retry {t.retryCount}: {msg}") ∨
  (¬(t.retryCount : Int) < S.settings.maxRetries ∧
    t.FailedWith s!"max retries ({S.settings.maxRetries}) exceeded: {msg}")

/-- The record that an attempt writes after the wait for the stream has ended with an exception.
There is none for an exception that no clause catches. -/
def TreatedAs (S : Setup Event) (t : Task) (e : Exc) : Prop :=
  match e.cls with
  | .fatal => t.FailedWith e.msg
  | .retriable => t.RetriedAfter S e.msg
  | .lockStolen => t.RetriedAfter S "distributed lock was stolen during execution"
  | .cancelled | .timeout => t.CancelledOut
  | .base => False
  | _ => t.FailedWith s!"unexpected: {e.msg}"

theorem RetriedAfter.not_unexpected {S : Setup Event} {t : Task} {msg other : String}
    (h : t.RetriedAfter S msg) : ¬t.FailedWith s!"unexpected: {other}" := by
  rintro ⟨hf, hd⟩
  rcases h with ⟨_, hi, _⟩ | ⟨_, _, hd'⟩
  · cases hi.symm.trans hf
  · have hhead := congrArg (fun s => s.toList.head?) (hd'.symm.trans hd)
    simp only [toString, String.toList_append, List.head?_append] at hhead
    cases hhead

theorem CancelledOut.not_failed {t : Task} {detail : String} (h : t.CancelledOut) :
    ¬t.FailedWith detail := by
  rintro ⟨hf, -⟩
  cases h.1.symm.trans hf

theorem CancelledOut.not_retried {S : Setup Event} {t : Task} {msg : String}
    (h : t.CancelledOut) : ¬t.RetriedAfter S msg := by
  rintro (⟨_, _, hd⟩ | ⟨_, hf⟩)
  · have hhead := congrArg (fun s => s.toList.head?) (hd.symm.trans h.2)
    simp only [toString, String.toList_append, List.head?_append] at hhead
    cases hhead
  · exact h.not_failed hf

end Task

/-- What has ended a wait for the stream: an exception that was raised in `_consume_sync`, the
limit on the time, or a cancellation from outside. -/
inductive Cause where
  | raised (e : Exc)
  | expired
  | cancelled

/-- The answer to a wait of process `i`, as it follows from a cause. -/
def Cause.Answers (S : Setup Event) (w : World Text Event) (l : SysLabel Text Event) (i : Nat)
    (r : Exc) : Cause → Prop
  | .raised e => ∃ n th, l = .cmd i (.awaitFuture n S.settings.streamTimeout) (.error r) ∧
      w.threads[n]? = some th ∧ th.state = .done (.error e) ∧ r = convertFutureExc e
  | .expired => ∃ n, l = .cmd i (.awaitFuture n S.settings.streamTimeout) (.error r) ∧
      0 < S.settings.streamTimeout ∧ r.cls = .timeout
  | .cancelled => ∃ n, l = .abort i (.awaitFuture n S.settings.streamTimeout) (.error r) ∧
      r.cls = .cancelled

/-- The record is written as the class of the exception alone says. -/
def Cause.Classified (S : Setup Event) (t : Task) : Cause → Prop
  | .raised e =>
    match e.cls with
    | .fatal => t.FailedWith e.msg
    | .retriable => t.RetriedAfter S e.msg
    | _ => t.FailedWith s!"unexpected: {e.msg}"
  | .expired | .cancelled => t.CancelledOut

/-- The exceptions that no handler on the way takes for something else. -/
def Cause.Plain : Cause → Prop
  | .raised e => e.cls ≠ .timeout ∧ e.cls ≠ .cancelled ∧ e.cls ≠ .futuresCancelled ∧
      e.cls ≠ .lockStolen
  | .expired | .cancelled => True

section
variable {S : Setup Event} {w : World Text Event} {l : SysLabel Text Event} {i : Nat} {r e : Exc}
  {c : Cause} {t : Task}

/-- The record written for an exception of the thread is the one for its class exactly if the
exception is plain. -/
theorem classified_raised_iff (ht : t.TreatedAs S (convertFutureExc e)) :
    (Cause.raised e).Classified S t ↔ (Cause.raised e).Plain := by
  have hplain (h : e.cls ≠ .timeout ∧ e.cls ≠ .cancelled ∧ e.cls ≠ .futuresCancelled ∧
      e.cls ≠ .lockStolen) (hc : (Cause.raised e).Classified S t) :
      (Cause.raised e).Classified S t ↔ (Cause.raised e).Plain := ⟨fun _ => h, fun _ => hc⟩
  have hother (h : ¬(Cause.raised e).Plain) (hc : ¬(Cause.raised e).Classified S t) :
      (Cause.raised e).Classified S t ↔ (Cause.raised e).Plain :=
    ⟨fun h => absurd h hc, fun hp => absurd hp h⟩
  obtain ⟨cls, msg⟩ := e
  cases cls with
  | fatal | retriable | value | runtime | other =>
    exact hplain ⟨nofun, nofun, nofun, nofun⟩ ht
  | timeout | cancelled | futuresCancelled =>
    have ht : t.CancelledOut := ht
    exact hother (fun hp => by simp [Cause.Plain] at hp) ht.not_failed
  | lockStolen =>
    have ht : t.RetriedAfter S "distributed lock was stolen during execution" := ht
    exact hother (fun hp => by simp [Cause.Plain] at hp) ht.not_unexpected
  | base => exact absurd ht not_false

theorem Cause.Answers.classified_iff (h : c.Answers S w l i r) (ht : t.TreatedAs S r) :
    c.Classified S t ↔ c.Plain := by
  cases c with
  | raised e =>
    obtain ⟨n, th, -, -, -, rfl⟩ := h
    exact classified_raised_iff ht
  | expired =>
    obtain ⟨n, -, -, hr⟩ := h
    rw [Task.TreatedAs, hr] at ht
    exact ⟨fun _ => trivial, fun _ => ht⟩
  | cancelled =>
    obtain ⟨n, -, hr⟩ := h
    rw [Task.TreatedAs, hr] at ht
    exact ⟨fun _ => trivial, fun _ => ht⟩

theorem Task.CancelledOut.outside (h : t.CancelledOut) (hc : c.Classified S t) :
    c = .expired ∨ c = .cancelled := by
  cases c with
  | raised e =>
    rw [Cause.Classified] at hc
    split at hc
    · exact absurd hc h.not_failed
    · exact absurd hc h.not_retried
    · exact absurd hc h.not_failed
  | expired => exact .inl rfl
  | cancelled => exact .inr rfl

end

section
variable [TaskJson Text]

/-- The exception that the wait for the stream has ended with, until a record is written. -/
def endings : Monitor (Cmd Text Event) Cmd.Answer (Option Exc) where
  init := none
  cmd d c r :=
    match c, r with
    | .awaitFuture .., .error e => some e
    | .set .., _ => none
    | _, _ => d
  abort d c r :=
    match c, r with
    | .awaitFuture .., .error e => some e
    | .set .., _ => none
    | _, _ => d

/-- The first record written after a wait that has raised is the one for this exception. -/
def treated (S : Setup Event) (d : Option Exc) (c : Cmd Text Event) (_ : c.Answer) : Prop :=
  match c with
  | .set _ x => ∀ e, d = some e → ∃ t : Task, parse x = some t ∧ t.TreatedAs S e
  | .awaitFuture _ timeout => timeout = S.settings.streamTimeout
  | _ => True

def Cmd.beforeEnd : Cmd Text Event → Prop
  | .awaitFuture .. => False
  | _ => True

def Cmd.afterEnd : Cmd Text Event → Prop
  | .awaitFuture .. | .set .. => False
  | _ => True

abbrev treating (Text : Type) [TaskJson Text] (S : Setup Event) :
    Assertion (system Text S) (Option Exc) :=
  endings.demanding (system Text S) (treated S)

variable {S : Setup Event} {i : Nat} {r : Exc}

theorem frames_beforeEnd : (treating Text S).Frames i Cmd.beforeEnd none := by
  apply Monitor.frames_demanding
  · intro c r hc
    cases c with
    | awaitFuture _ _ => exact absurd hc not_false
    | set _ _ => exact fun e he => by cases he
    | _ => trivial
  · intro c r hc
    cases c with
    | awaitFuture _ _ => exact absurd hc not_false
    | _ => rfl
  · intro c r hc
    cases c with
    | awaitFuture _ _ => exact absurd hc not_false
    | _ => rfl

theorem frames_afterEnd {d : Option Exc} : (treating Text S).Frames i Cmd.afterEnd d := by
  apply Monitor.frames_demanding
  · intro c r hc
    cases c with
    | awaitFuture _ _ | set _ _ => exact absurd hc not_false
    | _ => trivial
  · intro c r hc
    cases c with
    | awaitFuture _ _ | set _ _ => exact absurd hc not_false
    | _ => rfl
  · intro c r hc
    cases c with
    | awaitFuture _ _ | set _ _ => exact absurd hc not_false
    | _ => rfl

theorem beforeEnd_of_aside {c : Cmd Text Event} (h : c.aside) : c.beforeEnd := by
  cases c with
  | awaitFuture _ _ => exact absurd h.2 not_false
  | _ => trivial

/-- Commands outside the wait leave a turn alone that has no exception to treat. -/
theorem wp_before {q : Py Text Event σ α} {Q : α → σ → Option Exc → Prop}
    {X : Exc → σ → Option Exc → Prop} {s : σ} (hq : Asks Cmd.beforeEnd q)
    (hQ : ∀ a s, Q a s none) (hX : ∀ e s, X e s none) : Wp (treating Text S) i q Q X s none := by
  apply Wp.mono (Wp.of_within hq frames_beforeEnd)
  · rintro a s d rfl
    exact hQ a s
  · rintro e s d rfl
    exact hX e s

theorem wp_after {q : Py Text Event σ α} {Q : α → σ → Option Exc → Prop}
    {X : Exc → σ → Option Exc → Prop} {s : σ} {d : Option Exc} (hq : Asks Cmd.afterEnd q)
    (hQ : ∀ a s, Q a s d) (hX : ∀ e s, X e s d) : Wp (treating Text S) i q Q X s d := by
  apply Wp.mono (Wp.of_within hq frames_afterEnd)
  · rintro a s d rfl
    exact hQ a s
  · rintro e s d rfl
    exact hX e s

theorem wp_transition_treated {Q : Unit → Task → Option Exc → Prop}
    {X : Exc → Task → Option Exc → Prop} {t : Task} {d : Option Exc} {status : TaskStatus}
    {detail : String} (hQ : ∀ now, Q () (t.transition now status detail) d) :
    Wp (treating Text S) i (Worker.transition status detail) Q X t d := by
  apply Wp.bind
  apply Monitor.wp_demanded
  · exact fun _ => trivial
  · rintro r w w' ⟨⟨now, rfl⟩, -⟩
    exact Wp.mutate _ (hQ now)
  · rintro r w w' ⟨e, -, ⟨h, -⟩ | ⟨h, -⟩, -⟩
    · cases h
    · cases h

/-- The record for the exception is written. -/
theorem wp_update_treated {Q : Unit → Task → Option Exc → Prop}
    {X : Exc → Task → Option Exc → Prop} {t : Task} (ht : t.TreatedAs S r)
    (hQ : Q () t none) (hX : ∀ e, X e t none) :
    Wp (treating Text S) i (Worker.update S) Q X t (some r) := by
  have hclear : Wp (treating Text S) i (do
      if t.isTerminal ∧ t.requirement ≠ "" then
        ask (.delDigest (digestKey S t.projectName t.requirement))) Q X t none := by
    split
    · apply Monitor.wp_demanded
      · exact fun _ => trivial
      · rintro r w w' -
        cases r with
        | ok _ => exact hQ
        | error e => exact hX e
      · rintro r w w' -
        cases r with
        | ok _ => exact hQ
        | error e => exact hX e
    · exact Wp.pure _ hQ
  apply Wp.bind
  apply Wp.object
  apply Wp.bind
  apply Monitor.wp_demanded
  · rintro - e he
    obtain rfl := Option.some.inj he
    exact ⟨t, parse_dump t, ht⟩
  · rintro r w w' -
    cases r with
    | ok _ => exact hclear
    | error e => exact hX e
  · rintro r w w' -
    cases r with
    | ok _ => exact hclear
    | error e => exact hX e

theorem beforeEnd_of_keeps {q : Py Text Event Task α}
    (hq : (∀ t u, Task.SameTask u t → True → True) →
      Async.Keeps Cmd.aside (fun _ => True) q) : Asks Cmd.beforeEnd q :=
  ((hq fun _ _ _ _ => trivial).within fun _ => trivial).mono fun _ => beforeEnd_of_aside

theorem wp_handleRetriable_treated {exc : Exc} {t : Task}
    (h : ∀ u : Task, u.RetriedAfter S exc.msg → u.TreatedAs S r) :
    Wp (treating Text S) i (Worker.handleRetriable S exc) (fun _ _ d => d = none)
      (fun _ _ d => d = none) t (some r) := by
  apply Wp.bind
  apply Wp.object
  split
  · rename_i ht
    apply Wp.bind
    apply Wp.mutate
    apply Wp.bind
    apply wp_transition_treated
    intro now
    apply Wp.bind
    apply wp_update_treated
    · exact h _ (.inl ⟨Int.add_one_le_of_lt ht, rfl, rfl⟩)
    · apply Wp.bind
      apply Wp.object
      exact wp_before (asks trivial) (fun _ _ => rfl) fun _ _ => rfl
    · exact fun _ => rfl
  · rename_i ht
    apply Wp.bind
    apply wp_transition_treated
    intro now
    apply Wp.bind
    apply wp_update_treated
    · exact h _ (.inr ⟨ht, rfl, rfl⟩)
    · exact wp_before (beforeEnd_of_keeps fun _ => keeps_close) (fun _ _ => rfl) fun _ _ => rfl
    · exact fun _ => rfl

theorem wp_reject_treated {t : Task} {detail : String}
    (h : ∀ u : Task, u.FailedWith detail → u.TreatedAs S r) :
    Wp (treating Text S) i (Worker.reject S detail) (fun _ _ d => d = none)
      (fun _ _ d => d = none) t (some r) := by
  apply Wp.bind
  apply wp_transition_treated
  intro now
  apply Wp.bind
  apply wp_update_treated
  · exact h _ ⟨rfl, rfl⟩
  · exact wp_before (beforeEnd_of_keeps fun _ => keeps_close) (fun _ _ => rfl) fun _ _ => rfl
  · exact fun _ => rfl

/-- What `_stream` raises when the wait has ended with an exception. -/
def surfaced (S : Setup Event) (e : Exc) : Exc :=
  if e.cls = .timeout then
    ⟨.cancelled, s!"stream timeout after {S.reprFloat S.settings.streamTimeout}s"⟩
  else e

theorem wp_stream_treated {mode : TaskMode} {t : Task} :
    Wp (treating Text S) i (Worker.stream S mode) (fun _ _ d => d = none)
      (fun e _ d => d = none ∨ ∃ r, d = some r ∧ e = surfaced S r) t none := by
  apply Wp.bind
  apply Wp.object
  apply Wp.bind
  apply wp_before
  · exact asks trivial
  · intro it t
    apply Wp.bind
    apply wp_before
    · exact asks trivial
    · intro n t
      apply Wp.bind
      apply Wp.attempt
      have hraised (e : Exc) : Wp (treating Text S) i (if e.cls = .timeout then
          raise ⟨.cancelled, s!"stream timeout after {S.reprFloat S.settings.streamTimeout}s"⟩
          else raise e : Py Text Event Task Unit) (fun _ _ d => d = none)
          (fun e _ d => d = none ∨ ∃ r, d = some r ∧ e = surfaced S r) t (some e) := by
        split
        · rename_i he
          exact Wp.raise _ (.inr ⟨e, rfl, (if_pos he).symm⟩)
        · rename_i he
          exact Wp.raise _ (.inr ⟨e, rfl, (if_neg he).symm⟩)
      apply Monitor.wp_demanded
      · exact fun _ => rfl
      · rintro r w w' -
        cases r with
        | ok _ => exact Wp.pure _ rfl
        | error e => exact hraised e
      · rintro r w w' -
        cases r with
        | ok _ => exact Wp.pure _ rfl
        | error e => exact hraised e
    · exact fun _ _ => .inl rfl
  · exact fun _ _ => .inl rfl

/-- What an exception that leaves `_run_locked` has left to do. -/
def Unwinding (e : Exc) (d : Option Exc) : Prop :=
  ∀ r, d = some r → r.cls = .lockStolen ∧ e.cls = .lockStolen ∨
    (r.cls = .retriable ∨ r.cls = .base) ∧ e.cls ≠ .lockStolen

theorem unwinding_none {e : Exc} : Unwinding e none := fun _ h => by cases h

theorem wp_streamed_treated {mode : TaskMode} {t : Task} :
    Wp (treating Text S) i (do
        Worker.stream S mode
        Worker.transition .success ""
        Worker.update S)
      (fun _ _ d => d = none) (fun e _ d => d = none ∨ ∃ r, d = some r ∧ e = surfaced S r) t
      none := by
  apply Wp.bind
  apply Wp.mono wp_stream_treated
  · rintro _ s d rfl
    apply wp_before
    · apply within_bind (beforeEnd_of_keeps fun h => keeps_transition h _ _)
      exact fun _ => beforeEnd_of_keeps fun _ => keeps_update
    · exact fun _ _ => rfl
    · exact fun _ _ => .inl rfl
  · exact fun _ _ _ h => h

/-- A turn that has no exception to treat goes on without a wait. -/
theorem wp_pass {q : Py Text Event Task Unit} {s : Task} (hq : Asks Cmd.beforeEnd q) :
    Wp (treating Text S) i q (fun _ _ d => d = none) (fun e _ d => Unwinding e d) s none :=
  wp_before hq (fun _ _ => rfl) fun _ _ => unwinding_none

theorem wp_attemptStream_treated {mode : TaskMode} {t : Task} :
    Wp (treating Text S) i (Worker.attemptStream S mode) (fun _ _ d => d = none)
      (fun e _ d => Unwinding e d) t none := by
  have hreject (s : Task) {r : Exc} {detail : String}
      (h : ∀ u : Task, u.FailedWith detail → u.TreatedAs S r) :
      Wp (treating Text S) i (Worker.reject S detail) (fun _ _ d => d = none)
        (fun e _ d => Unwinding e d) s (some r) := by
    apply Wp.mono (wp_reject_treated h)
    · exact fun _ _ _ hd => hd
    · rintro e _ _ rfl
      exact unwinding_none
  have hcancelled (s : Task) {r : Exc} (exc : Exc)
      (h : ∀ u : Task, u.CancelledOut → u.TreatedAs S r) :
      Wp (treating Text S) i (do
          Worker.transition .interrupted "worker cancelled"
          Worker.update S
          Worker.close
          raise exc : Py Text Event Task Unit)
        (fun _ _ d => d = none) (fun e _ d => Unwinding e d) s (some r) := by
    apply Wp.bind
    apply wp_transition_treated
    intro now
    apply Wp.bind
    apply wp_update_treated
    · exact h _ ⟨rfl, rfl⟩
    · apply wp_pass
      exact within_bind (beforeEnd_of_keeps fun _ => keeps_close) fun _ => within_raise exc
    · exact fun _ => unwinding_none
  apply Wp.bind
  apply Wp.attempt
  apply Wp.mono wp_streamed_treated
  · rintro _ s d rfl
    exact wp_pass (beforeEnd_of_keeps fun _ => keeps_close)
  · rintro e s d (rfl | ⟨r, rfl, rfl⟩)
    · dsimp only
      split
      · exact wp_pass (beforeEnd_of_keeps fun h => keeps_reject h _)
      · apply wp_pass
        apply within_bind (beforeEnd_of_keeps fun _ => keeps_close)
        exact fun _ => beforeEnd_of_keeps fun h => keeps_handleRetriable h e
      · exact Wp.raise _ unwinding_none
      · exact Wp.raise _ unwinding_none
      · apply wp_pass
        apply within_bind (beforeEnd_of_keeps fun h => keeps_transition h _ _)
        intro _
        apply within_bind (beforeEnd_of_keeps fun _ => keeps_update)
        intro _
        exact within_bind (beforeEnd_of_keeps fun _ => keeps_close) fun _ => within_raise e
      · exact wp_pass (beforeEnd_of_keeps fun h => keeps_reject h _)
    · by_cases ht : r.cls = .timeout
      · rw [surfaced, if_pos ht]
        exact hcancelled s _ fun u hu => by rwa [Task.TreatedAs, ht]
      · rw [surfaced, if_neg ht]
        dsimp only
        split
        case h_1 he => exact hreject s fun u hu => by rwa [Task.TreatedAs, he]
        case h_2 he =>
          apply Wp.bind
          apply Wp.bind
          apply Wp.object
          apply Monitor.wp_demanded
          · exact fun _ => trivial
          · rintro _ w w' ⟨rfl, -⟩
            apply Wp.mono
              (wp_handleRetriable_treated fun u hu => by rwa [Task.TreatedAs, he])
            · exact fun _ _ _ hd => hd
            · rintro e _ _ rfl
              exact unwinding_none
          · rintro _ w w' ⟨e, rfl, hcls, -⟩ r' hr
            obtain rfl := Option.some.inj hr
            refine .inr ⟨.inl he, ?_⟩
            rcases hcls with ⟨_, hc⟩ | ⟨_, hc⟩ <;> rw [hc] <;> decide
        case h_3 he =>
          apply Wp.raise
          intro r' hr
          obtain rfl := Option.some.inj hr
          exact .inl ⟨he, he⟩
        case h_4 he =>
          apply Wp.raise
          intro r' hr
          obtain rfl := Option.some.inj hr
          exact .inr ⟨.inr he, by rw [he]; decide⟩
        case h_5 he => exact hcancelled s _ fun u hu => by rwa [Task.TreatedAs, he]
        case h_6 h₁ h₂ h₃ h₄ h₅ =>
          apply hreject s
          intro u hu
          cases hc : r.cls with
          | fatal => exact absurd hc h₁
          | retriable => exact absurd hc h₂
          | lockStolen => exact absurd hc h₃
          | base => exact absurd hc h₄
          | cancelled => exact absurd hc h₅
          | timeout => exact absurd hc ht
          | _ => rwa [Task.TreatedAs, hc]

theorem wp_runLocked_treated {t : Task} :
    Wp (treating Text S) i (Worker.runLocked S) (fun _ _ d => d = none)
      (fun e _ d => Unwinding e d) t none := by
  apply Wp.bind
  apply Wp.object
  apply Wp.bind
  apply wp_before
  · exact within_attempt (asks trivial)
  · intro o s
    cases o with
    | error e =>
      dsimp only
      split
      · exact wp_pass (beforeEnd_of_keeps fun h => keeps_reject h _)
      · exact Wp.raise _ unwinding_none
    | ok _ =>
      apply Wp.bind
      apply wp_before
      · exact within_attempt (beforeEnd_of_keeps fun h => keeps_decide h)
      · intro o s
        cases o with
        | error e =>
          dsimp only
          split
          · exact wp_pass (beforeEnd_of_keeps fun h => keeps_reject h _)
          · exact Wp.raise _ unwinding_none
        | ok mode =>
          apply Wp.bind
          apply wp_before
          · exact beforeEnd_of_keeps fun h => keeps_transition h _ _
          · intro _ s
            apply Wp.bind
            apply wp_before
            · exact beforeEnd_of_keeps fun _ => keeps_update
            · exact fun _ s => wp_attemptStream_treated
            · exact fun _ _ => unwinding_none
          · exact fun _ _ => unwinding_none
      · exact fun _ _ => unwinding_none
  · exact fun _ _ => unwinding_none

/-- What a turn can leave untreated: a `RetriableError` whose handler was left at its close, or an
exception that no clause catches. -/
def Untreated (d : Option Exc) : Prop :=
  ∀ r, d = some r → r.cls = .retriable ∨ r.cls = .base

theorem untreated_none : Untreated none := fun _ h => by cases h

theorem wp_guarded_treated {t : Task} :
    Wp (treating Text S) i (Worker.guarded S) (fun _ _ d => Untreated d) (fun _ _ d => Untreated d)
      t none := by
  have hstolen (s : Task) (r : Exc) (hr : r.cls = .lockStolen) :
      Wp (treating Text S) i (Worker.handleRetriable S
          ⟨.retriable, "distributed lock was stolen during execution"⟩)
        (fun _ _ d => Untreated d) (fun _ _ d => Untreated d) s (some r) := by
    apply Wp.mono (wp_handleRetriable_treated fun u hu => by rwa [Task.TreatedAs, hr])
    · rintro _ _ _ rfl
      exact untreated_none
    · rintro _ _ _ rfl
      exact untreated_none
  apply Wp.bind
  apply Wp.attempt
  apply Wp.mono wp_runLocked_treated
  · rintro _ s d rfl
    exact Wp.pure _ untreated_none
  · intro e s d hd
    dsimp only
    split
    · rename_i he
      apply Wp.bind
      apply Wp.object
      apply Wp.bind
      apply Monitor.wp_demanded
      · exact fun _ => trivial
      · rintro _ w w' ⟨rfl, -⟩
        cases d with
        | none =>
          apply wp_before
          · exact beforeEnd_of_keeps fun h => keeps_handleRetriable h _
          · exact fun _ _ => untreated_none
          · exact fun _ _ => untreated_none
        | some r =>
          rcases hd r rfl with ⟨hr, _⟩ | ⟨_, hne⟩
          · exact hstolen s r hr
          · exact absurd he hne
      · rintro _ w w' ⟨e, rfl, ⟨h, -⟩ | ⟨h, -⟩, -⟩
        · cases h
        · cases h
    · rename_i he
      apply Wp.raise
      intro r hr
      rcases hd r hr with ⟨_, hs⟩ | ⟨hr, _⟩
      · exact absurd hs he
      · exact hr

theorem wp_execute_treated {t : Task} :
    Wp (treating Text S) i (Worker.execute S) (fun _ _ d => Untreated d) (fun _ _ d => Untreated d)
      t none := by
  have hclean (p τ : String) (s : Task) {d : Option Exc} (hd : Untreated d) :
      Wp (treating Text S) i (Worker.cleanUp p τ) (fun _ _ d => Untreated d)
        (fun _ _ d => Untreated d) s d := by
    apply wp_after
    · exact asks_cleanUp (fun _ => trivial) (fun _ => trivial) (fun _ _ => trivial) p τ
    · exact fun _ _ => hd
    · exact fun _ _ => hd
  apply Wp.bind
  apply Wp.object
  apply Wp.bind
  apply wp_before
  · exact asks trivial
  · intro τ t
    apply Wp.bind
    apply wp_before
    · exact asks trivial
    · intro b t
      split
      · apply Wp.bind
        apply wp_before
        · exact asks trivial
        · intro _ t
          apply Wp.ensure
          apply Wp.mono wp_guarded_treated
          · exact fun _ s d hd => hclean _ _ s hd
          · exact fun _ s d hd => hclean _ _ s hd
        · exact fun _ _ => untreated_none
      · apply wp_before
        · apply within_bind (asks trivial)
          intro _
          exact within_bind (asks trivial) fun _ => asks trivial
        · exact fun _ _ => untreated_none
        · exact fun _ _ => untreated_none
    · exact fun _ _ => untreated_none
  · exact fun _ _ => untreated_none

theorem treated_body (q : Kind) : Safe (treating Text S) i (fun _ d => Untreated d)
    ((system Text S).body q) none := by
  apply Wp.start
  cases q with
  | recover =>
    apply wp_before
    · apply within_bind (asks_recoverStrandedTasks.mono fun c hc => ?_) fun _ => within_pure _
      cases c with
      | awaitFuture _ _ => exact absurd hc.2 not_false
      | _ => trivial
    · exact fun _ _ => untreated_none
    · exact fun _ _ => untreated_none
  | worker =>
    apply Wp.bind
    apply Wp.bind
    apply wp_before
    · apply within_bind (asks trivial)
      intro o
      cases o <;> exact within_pure _
    · intro o s
      cases o with
      | none => exact Wp.pure _ (Wp.pure _ untreated_none)
      | some t =>
        apply Wp.on
        exact Wp.mono wp_execute_treated (fun _ _ _ h => Wp.pure _ h) fun _ _ _ h => h
    · exact fun _ _ => untreated_none
  | request body =>
    apply wp_before
    · apply within_bind ((asks_createTask body).mono fun c hc => ?_) fun _ => within_pure _
      cases c with
      | awaitFuture _ _ => exact absurd hc.2 not_false
      | _ => trivial
    · exact fun _ _ => untreated_none
    · exact fun _ _ => untreated_none

/-- In the run that has led here, process `i` was waiting for its stream, and the wait has ended
with the exception `r` for this cause. -/
def Cause.Ended (S : Setup Event) (i : Nat) (r : Exc) (tr : List (SysLabel Text Event))
    (s : SysConfig Text Event) (c : Cause) : Prop :=
  ∃ tr₀ s₀ l s₁, Run (system Text S) anyway (.idle .init) tr₀ s₀ ∧
    (system Text S).Step s₀ l s₁ ∧ Run.After (system Text S) anyway (l :: tr₀) s₁ tr s ∧
    c.Answers S s₀.world l i r

variable {tr : List (SysLabel Text Event)} {s s' : SysConfig Text Event} {l : SysLabel Text Event}

theorem Cause.Ended.step {c : Cause} (h : c.Ended S i r tr s) (hs : (system Text S).Step s l s') :
    c.Ended S i r (l :: tr) s' := by
  obtain ⟨tr₀, s₀, l₀, s₁, hr, hs₀, ha, hc⟩ := h
  exact ⟨tr₀, s₀, l₀, s₁, hr, hs₀, .cons ha hs trivial, hc⟩

theorem meets_treated (hr : Run (system Text S) anyway (.idle .init) tr s) :
    endings.Meets (treated S) tr :=
  (Monitor.meets_of_run (fun _ _ => treated_body _) hr).1

/-- A wait that has ended with an exception has ended for a cause. -/
theorem exists_cause (hr : Run (system Text S) anyway (.idle .init) tr s)
    (he : endings.read i tr = some r) : ∃ c : Cause, c.Ended S i r tr s := by
  induction hr with
  | nil => cases he
  | cons hr hs hok ih =>
    have hmeets := meets_treated (.cons hr hs hok)
    have hpass (h : endings.read i _ = some r) := (ih h).imp fun _ hc => hc.step hs
    have hnow {c : Cause} (hc : c.Answers S _ _ i r) : ∃ c : Cause, c.Ended S i r _ _ :=
      ⟨c, _, _, _, _, hr, hs, .refl, hc⟩
    cases hs with
    | @answer j q c k a w l hp ha =>
      by_cases hj : j = i
      · subst hj
        cases ha with
        | cmd hx =>
          rw [Monitor.read, if_pos rfl] at he
          cases c with
          | awaitFuture n timeout =>
            obtain rfl : timeout = S.settings.streamTimeout := hmeets
            cases a with
            | ok _ => exact hpass he
            | error e =>
              obtain rfl := Option.some.inj he
              obtain ⟨th, o, hth, ho, hr, -⟩ | ⟨hlimit, ⟨m, hm⟩, -⟩ := hx
              · cases o with
                | ok _ => cases hr
                | error e' =>
                  exact hnow (c := .raised e') ⟨n, th, rfl, hth, ho, Except.error.inj hr⟩
              · exact hnow (c := .expired) ⟨n, rfl, hlimit, by rw [Except.error.inj hm]⟩
          | set _ _ => cases he
          | _ => exact hpass he
        | abort hx =>
          rw [Monitor.read, if_pos rfl] at he
          cases c with
          | awaitFuture n timeout =>
            obtain rfl : timeout = S.settings.streamTimeout := hmeets
            obtain ⟨e, rfl, ⟨-, hcls⟩ | ⟨hredis, -⟩, -⟩ := hx
            · obtain rfl := Option.some.inj he
              exact hnow (c := .cancelled) ⟨n, rfl, hcls⟩
            · cases hredis
          | set _ _ => cases he
          | _ => exact hpass he
      · cases ha with
        | cmd _ | abort _ =>
          rw [Monitor.read, if_neg hj] at he
          exact hpass he
    | spawn _ _ | exit _ _ =>
      rw [Monitor.read] at he
      split at he
      · cases he
      · exact hpass he
    | env _ => exact hpass he
    | halt _ => cases he

/-- The first record written after a wait that has raised is the one for the exception. -/
theorem exists_treated (hr : Run (system Text S) anyway (.idle .init) tr s)
    (hs : (system Text S).Step s l s') {x : Text} (hw : writes l = some (i, x))
    (he : endings.read i tr = some r) : ∃ t : Task, parse x = some t ∧ t.TreatedAs S r := by
  have hmeets := meets_treated (.cons hr hs trivial)
  cases hs with
  | answer _ ha =>
    obtain ⟨rfl, id, rfl⟩ := writes_answer ha hw
    cases ha with
    | cmd _ | abort _ => exact hmeets r he
  | _ => cases hw

/-- The first record that a process writes after its wait for the stream has raised: the wait has
ended for a cause, and whatever that was, the record is the one that the class of the exception
alone calls for exactly if the exception is plain. A plain exception of the thread is no cause for
an interruption by `CancelledError`. A worker that returns without such a write was handling a
`RetriableError`, or passing on what is no `Exception`. -/
theorem class_law {S : Setup Event} :
    (∀ tr s l s' i x r, Run (system Text S) anyway (.idle .init) tr s →
      (system Text S).Step s l s' → writes l = some (i, x) → endings.read i tr = some r →
      ∃ t : Task, parse x = some t ∧ (∃ c : Cause, c.Ended S i r tr s) ∧
        ∀ c : Cause, c.Ended S i r tr s → (c.Classified S t ↔ c.Plain) ∧
          (t.CancelledOut → c.Plain → c = .expired ∨ c = .cancelled)) ∧
    ∀ tr s i b r, Run (system Text S) anyway (.idle .init) tr s →
      s.pool i = some (.worker, .ret b) → endings.read i tr = some r →
      r.cls = .retriable ∨ r.cls = .base := by
  constructor
  · intro tr s l s' i x r hr hs hw he
    obtain ⟨t, hx, ht⟩ := exists_treated hr hs hw he
    refine ⟨t, hx, exists_cause hr he, fun c hc => ?_⟩
    obtain ⟨tr₀, s₀, l₀, s₁, -, -, -, ha⟩ := hc
    have hiff := ha.classified_iff ht
    exact ⟨hiff, fun hout hplain => hout.outside (hiff.2 hplain)⟩
  · intro tr s i b r hr hp he
    exact (Monitor.meets_of_run (fun _ _ => treated_body _) hr).2 i _ _ hp r he

end

/-- A deployment without a limit on the time of a stream. -/
def patient : Setup String := { demo with settings := { demo.settings with streamTimeout := 0 } }

/-- The exception that the wait of process `i` has ended with, and the status that its next command
writes. -/
def treatment (S : Setup String) (i : Nat)
    (o : List (SysLabel Task String) × SysConfig Task String) : Option (Exc × TaskStatus) :=
  (endings.read i o.1).bind fun r => ((driver S).step o.2 (.cmd i .auto)).bind fun o' =>
    (writes o'.1).bind fun p => if p.1 = i then some (r, p.2.status) else none

theorem treatment_eq {S : Setup String} {i : Nat} {tr : List (SysLabel Task String)}
    {s : SysConfig Task String} {r : Exc} {st : TaskStatus}
    (h : treatment S i (tr, s) = some (r, st)) : ∃ l s' t, (system Task S).Step s l s' ∧
      writes l = some (i, t) ∧ endings.read i tr = some r ∧ t.status = st := by
  obtain ⟨r', he, hrest⟩ := Option.bind_eq_some_iff.1 h
  obtain ⟨⟨l, s'⟩, hs, hrest⟩ := Option.bind_eq_some_iff.1 hrest
  obtain ⟨⟨j, t⟩, hw, hrest⟩ := Option.bind_eq_some_iff.1 hrest
  obtain ⟨hj, hlast⟩ := Option.ite_none_right_eq_some.1 hrest
  obtain ⟨hr, hst⟩ := Prod.mk.inj (Option.some.inj hlast)
  exact ⟨l, s', t, (driver S).step_sound hs, hj ▸ hw, hr ▸ he, hst⟩

/-- The iterator raises, and the wait is over: the record is about to be written. -/
def raisedInStream (e : Exc) : Schedule :=
  start ++ create 1 ++ [.spawn 2 .worker] ++ go 2 9 ++ [.cmd 2 (.yields ⟨[], .error e⟩)] ++
    go 2 1 ++ [.env (.threadStart 0), .env (.threadEnd 0)] ++ go 2 2

theorem class_law_fatal : ∃ tr s t c, DemoRun anyway tr s ∧
    Cause.Ended demo 2 ⟨.fatal, "no"⟩ tr s c ∧ (c.Classified demo t ↔ c.Plain) := by
  obtain ⟨tr, s, hr, hs⟩ := demoDriver.drive_observe anyway (.idle .init)
    (raisedInStream ⟨.fatal, "no"⟩) (treatment demo 2)
    (show _ = some (⟨.fatal, "no"⟩, .failed) by decide)
  obtain ⟨l, s', x, hs, hw, he, -⟩ := treatment_eq hs
  obtain ⟨t, -, ⟨c, hc⟩, h⟩ := class_law.1 tr s l s' 2 x _ hr hs hw he
  exact ⟨tr, s, t, c, hr, hc, (h c hc).1⟩

/-- No limit is set, and the iterator raises a `TimeoutError`. -/
theorem not_class_law : ¬∀ tr s l s' x r e, Run (system Task patient) anyway (.idle .init) tr s →
    (system Task patient).Step s l s' → writes l = some (2, x) → endings.read 2 tr = some r →
    (Cause.raised e).Ended patient 2 r tr s → (Cause.raised e).Classified patient x := by
  intro h
  obtain ⟨tr, s, hr, hs⟩ := (driver patient).drive_observe anyway (.idle .init)
    (raisedInStream ⟨.timeout, "slow"⟩) (treatment patient 2)
    (show _ = some (⟨.timeout, "slow"⟩, .interrupted) by decide)
  obtain ⟨l, s', t, hs, hw, he, hst⟩ := treatment_eq hs
  obtain ⟨c, hc⟩ := exists_cause hr he
  obtain ⟨tr₀, s₀, l₀, s₁, hr₀, hs₀, ha, hans⟩ := id hc
  cases c with
  | raised e =>
    obtain ⟨n, th, -, -, -, he'⟩ := hans
    have hcls : e.cls = .timeout := by
      by_contra hne
      rw [convertFutureExc] at he'
      split at he'
      · cases he'
      · rw [← he'] at hne
        exact hne rfl
    have hclass := h tr s l s' t _ e hr hs hw he hc
    rw [Cause.Classified, hcls] at hclass
    cases hst.symm.trans hclass.1
  | expired =>
    obtain ⟨n, -, hlimit, -⟩ := hans
    exact absurd hlimit (by decide)
  | cancelled =>
    obtain ⟨n, -, hcls⟩ := hans
    cases hcls

end Orchestrator
