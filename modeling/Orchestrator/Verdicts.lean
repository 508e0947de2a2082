import Mathlib.Data.List.Forall2
import Orchestrator.Retries

namespace Orchestrator
open Concurrency Async Progress
set_option autoImplicit true

/-- What has come of the stream of a turn: the iterator and its thread, whether a publish has
failed, how many events were published before the first `close`, and whether the success could
not be written. -/
structure Attempt (Event : Type) where
  iter : Option (Iter Event) := none
  thread : Option Nat := none
  cut : Bool := false
  unsaved : Bool := false
  sent : Nat := 0
  closed : Bool := false

namespace Attempt

def after (a : Attempt Event) : (c : Cmd Text Event) → c.Answer → Attempt Event
  | .brpop, _ => {}
  | .runInExecutor _ _ it, .ok n => { iter := some it, thread := some n }
  | .set .., .error _ | .delDigest _, .error _ => { a with unsaved := true }
  | .publish .., _ => { a with closed := true }
  | _, _ => a

def see (a : Attempt Event) : Tick → Attempt Event
  | .threadPublish n =>
    if a.thread = some n ∧ a.closed = false then { a with sent := a.sent + 1 } else a
  | .threadFails n _ => if a.thread = some n then { a with cut := true } else a
  | _ => a

/-- The events that were published. -/
def forwarded (a : Attempt Event) : List Event :=
  a.iter.elim [] fun it => it.events.take a.sent

/-- The events that the engine yields, up to the first one that cannot be published. -/
def due (a : Attempt Event) : List Event :=
  a.iter.elim [] fun it => if a.cut then it.events.take a.sent else it.events

/-- The engine has given an iterator that ended normally, and nothing has failed. -/
def sound (a : Attempt Event) : Bool :=
  a.iter.any fun it => it.ending.toBool && !a.cut && !a.unsaved

end Attempt

/-- The attempt that a process is in. -/
def attemptOf (i : Nat) : List (SysLabel Text Event) → Attempt Event
  | [] => {}
  | .cmd j c r :: tr | .abort j c r :: tr =>
    if j = i then (attemptOf i tr).after c r else attemptOf i tr
  | .spawn j _ :: tr | .exit j _ _ :: tr => if j = i then {} else attemptOf i tr
  | .env e :: tr => (attemptOf i tr).see e
  | .halt :: _ => {}

/-- The events of a stream agree with the status that is stored at its end. -/
def Agrees (name : Event → String) (status : TaskStatus) (events : List Event) : Prop :=
  (status = .success → ∀ ev ∈ events, name ev ≠ "workflow_failed") ∧
  (status = .failed → (∃ ev ∈ events, name ev = "workflow_failed") ∧
    ∀ ev ∈ events, name ev ≠ "workflow_complete")

/-- The events that the engine yields suit the way the attempt ends. -/
def Attempt.Suits (name : Event → String) (a : Attempt Event) : Prop :=
  Agrees name (if a.sound then .success else .failed) a.due

/-- The payloads of the events are on the channel of the task, in this order. -/
def Forwarded (S : Setup Event) (w : World Text Event) (id : String) (events : List Event) : Prop :=
  ∃ payloads, events.Forall₂ (fun ev data => S.encode ev = .ok data) payloads ∧
    (payloads.map (channel id, ·)).Sublist w.redis.published

section
variable {w w' : World Text Event} {a : Attempt Event} {id : String} {events : List Event}

/-- Threads stay as they are, except that one that waits may be dropped, and no message is taken
back. -/
structure Onward (w w' : World Text Event) : Prop where
  threads : ∀ (n : Nat) (th : Thread Event), w.threads[n]? = some th → w'.threads[n]? = some th ∨
    th.state = .queued ∧ w'.threads[n]? = some { th with state := .dropped }
  published : w.redis.published <+: w'.redis.published

theorem onward_of_eq (ht : w'.threads = w.threads) (hp : w'.redis.published = w.redis.published) :
    Onward w w' :=
  ⟨fun n th h => .inl (by rwa [ht]), hp ▸ List.prefix_rfl⟩

theorem onward_cancelFuture (w : World Text Event) (n : Nat) : Onward w (w.cancelFuture n) := by
  unfold World.cancelFuture
  split
  · rename_i th hn
    split
    · rename_i hq
      refine ⟨fun m th' hm => ?_, List.prefix_rfl⟩
      simp only [World.setThread]
      by_cases hnm : n = m
      · subst hnm
        rw [hn] at hm
        cases hm
        rw [List.getElem?_set_self (List.getElem?_eq_some_iff.1 hn).1]
        exact .inr ⟨hq, rfl⟩
      · rw [List.getElem?_set_ne hnm]
        exact .inl hm
    · exact onward_of_eq rfl rfl
  · exact onward_of_eq rfl rfl

theorem exec_onward {c : Cmd Text Event} {r : c.Answer} (h : exec c r w w') : Onward w w' := by
  cases c with
  | setNx _ _ | brpop | acquireLock _ _ _ =>
    simp only [exec] at h
    split at h <;> obtain ⟨_, rfl⟩ := h <;> exact onward_of_eq rfl rfl
  | publish ch data =>
    obtain ⟨_, rfl⟩ := h
    exact ⟨fun n th hn => .inl hn, List.prefix_append ..⟩
  | evalRelease p τ =>
    obtain ⟨_, rfl⟩ := h
    unfold World.onRedis Redis.evalRelease
    dsimp only
    split <;> exact onward_of_eq rfl rfl
  | uuid4 =>
    obtain ⟨_, _, _, rfl⟩ := h
    exact onward_of_eq rfl rfl
  | cancelHeartbeat τ =>
    obtain ⟨_, rfl⟩ := h
    unfold World.cancelHeartbeat
    split
    · split <;> exact onward_of_eq rfl rfl
    · exact onward_of_eq rfl rfl
  | runInExecutor id p it =>
    obtain ⟨_, rfl⟩ := h
    refine ⟨fun n th hn => .inl ?_, List.prefix_rfl⟩
    rwa [List.getElem?_append_left (List.getElem?_eq_some_iff.1 hn).1]
  | awaitFuture n timeout =>
    obtain ⟨_, _, _, _, _, rfl⟩ | ⟨_, _, rfl⟩ := h
    · exact onward_of_eq rfl rfl
    · exact onward_cancelFuture w n
  | _ =>
    obtain ⟨_, rfl⟩ := h
    exact onward_of_eq rfl rfl

theorem onward_giveUp (c : Cmd Text Event) (w : World Text Event) : Onward w (c.giveUp w) := by
  cases c with
  | awaitFuture n timeout => exact onward_cancelFuture w n
  | _ => exact onward_of_eq rfl rfl

theorem Forwarded.mono {S : Setup Event} (h : Forwarded S w id events)
    (hw : w.redis.published <+: w'.redis.published) : Forwarded S w' id events := by
  obtain ⟨payloads, he, hp⟩ := h
  exact ⟨payloads, he, hp.trans hw.sublist⟩

/-- A thread that is at its end has run through its iterator, unless a publish has failed. -/
def Thread.Ends (th : Thread Event) (cut : Bool) : Prop :=
  match th.state with
  | .done o => if cut then ∃ e, o = .error e else o = th.ending ∧ th.remaining = []
  | _ => cut = false

theorem Thread.ends_iff {th : Thread Event} {cut : Bool} (h : ∀ o, th.state ≠ .done o) :
    th.Ends cut ↔ cut = false := by
  unfold Thread.Ends
  split
  · rename_i o ho
    exact absurd ho (h o)
  · exact Iff.rfl

/-- What a thread has left to publish is what the attempt has not seen published. -/
structure Feeds (S : Setup Event) (w : World Text Event) (a : Attempt Event) (it : Iter Event)
    (th : Thread Event) : Prop where
  iter : a.iter = some it
  ending : th.ending = it.ending
  remaining : a.closed = false → th.remaining = it.events.drop a.sent
  ends : th.Ends a.cut
  published : Forwarded S w th.taskId (it.events.take a.sent)

theorem Feeds.uncut {it : Iter Event} {th : Thread Event} {st : ThreadState} {S : Setup Event}
    (h : Feeds S w a it th) (hs : th.state = st) (hst : ∀ o, st ≠ .done o) : a.cut = false :=
  (Thread.ends_iff (hs ▸ hst)).1 h.ends

/-- The thread of an attempt works through the iterator of the attempt. -/
structure Fed (S : Setup Event) (w : World Text Event) (a : Attempt Event) : Prop where
  feeds : ∀ n, a.thread = some n → ∃ it th, w.threads[n]? = some th ∧ Feeds S w a it th
  without : a.thread = none → a.iter = none

variable {S : Setup Event}

theorem fed_new : Fed S w {} := ⟨fun n h => (by cases h), fun _ => rfl⟩

theorem Fed.mono (h : Fed S w a) (hw : Onward w w') : Fed S w' a := by
  refine ⟨fun n hn => ?_, h.without⟩
  obtain ⟨it, th, ht, hf⟩ := h.feeds n hn
  rcases hw.threads n th ht with ht' | ⟨hq, ht'⟩
  · exact ⟨it, th, ht', hf.iter, hf.ending, hf.remaining, hf.ends, hf.published.mono hw.published⟩
  · refine ⟨it, _, ht', hf.iter, hf.ending, hf.remaining, ?_, hf.published.mono hw.published⟩
    exact (Thread.ends_iff fun o ho => by cases ho).2 (hf.uncut hq fun o ho => by cases ho)

/-- A change of the attempt that concerns neither the iterator nor the events. -/
theorem Fed.aside {b : Attempt Event} (h : Fed S w a) (hi : b.iter = a.iter)
    (ht : b.thread = a.thread) (hc : b.cut = a.cut) (hs : b.sent = a.sent)
    (hd : b.closed = false → a.closed = false) : Fed S w b := by
  refine ⟨fun n hn => ?_, fun hn => by rw [hi, h.without (ht ▸ hn)]⟩
  obtain ⟨it, th, hth, hf⟩ := h.feeds n (ht ▸ hn)
  refine ⟨it, th, hth, by rw [hi, hf.iter], hf.ending, fun hcl => ?_, by rw [hc]; exact hf.ends, ?_⟩
  · rw [hs]
    exact hf.remaining (hd hcl)
  · rw [hs]
    exact hf.published

/-- One thread goes on. -/
theorem Fed.step {b : Attempt Event} {n : Nat} {th th' : Thread Event} (h : Fed S w a)
    (hn : w.threads[n]? = some th) (hw : w'.threads = w.threads.set n th')
    (hp : w.redis.published <+: w'.redis.published) (hi : b.iter = a.iter)
    (ht : b.thread = a.thread) (ho : a.thread ≠ some n → b = a)
    (hf : ∀ it, a.thread = some n → Feeds S w a it th → Feeds S w' b it th') : Fed S w' b := by
  refine ⟨fun m hm => ?_, fun hm => by rw [hi, h.without (ht ▸ hm)]⟩
  obtain ⟨it, thm, hthm, hfm⟩ := h.feeds m (ht ▸ hm)
  rw [hw]
  by_cases hnm : n = m
  · subst hnm
    cases hn.symm.trans hthm
    exact ⟨it, th', List.getElem?_set_self (List.getElem?_eq_some_iff.1 hn).1,
      hf it (ht ▸ hm) hfm⟩
  · have hne : a.thread ≠ some n := by
      rw [← ht, hm]
      exact fun he => hnm (Option.some.inj he).symm
    rw [ho hne]
    exact ⟨it, thm, by rwa [List.getElem?_set_ne hnm],
      hfm.iter, hfm.ending, hfm.remaining, hfm.ends, hfm.published.mono hp⟩

theorem Feeds.publish {it : Iter Event} {th : Thread Event} {ev : Event} {rest : List Event}
    {data : String} (h : Feeds S w a it th) (hs : th.state = .running)
    (hr : th.remaining = ev :: rest) (hd : S.encode ev = .ok data) (hc : a.closed = false) :
    Feeds S ((w.onRedis (·.publish (channel th.taskId) data)).setThread n
      { th with remaining := rest })
      { a with sent := a.sent + 1 } it { th with remaining := rest } := by
  have hdrop : it.events.drop a.sent = ev :: rest := (h.remaining hc).symm.trans hr
  refine ⟨h.iter, h.ending, fun _ => ?_, ?_, ?_⟩
  · rw [← List.drop_drop, hdrop]
    rfl
  · have hst (o : Except Exc Unit) : th.state ≠ .done o := fun ho => by cases hs.symm.trans ho
    refine (Thread.ends_iff ?_).2 ((Thread.ends_iff hst).1 h.ends)
    exact hst
  · have htake : it.events.take (a.sent + 1) = it.events.take a.sent ++ [ev] := by
      rw [List.take_add, hdrop]
      rfl
    obtain ⟨payloads, he, hp⟩ := h.published
    refine ⟨payloads ++ [data], ?_, ?_⟩
    · rw [htake]
      exact List.rel_append he (.cons hd .nil)
    · rw [List.map_append]
      exact hp.append (List.Sublist.refl _)

theorem Fed.see {e : Tick} (h : Fed S w a) (ht : tick S e w w') : Fed S w' (a.see e) := by
  cases e with
  | threadStart n =>
    obtain ⟨th, hn, hq, rfl⟩ := ht
    refine h.step hn rfl List.prefix_rfl rfl rfl (fun _ => rfl) fun it _ hf => ?_
    refine ⟨hf.iter, hf.ending, hf.remaining, ?_, hf.published⟩
    exact (Thread.ends_iff fun o ho => by cases ho).2 (hf.uncut hq fun o ho => by cases ho)
  | threadPublish n =>
    obtain ⟨th, ev, rest, data, hn, hs, hr, hd, rfl⟩ := ht
    have hp : w.redis.published <+: w.redis.published ++ [(channel th.taskId, data)] :=
      List.prefix_append ..
    simp only [Attempt.see]
    split
    · rename_i hc
      exact h.step hn rfl hp rfl rfl (fun hne => absurd hc.1 hne)
        fun it _ hf => hf.publish hs hr hd hc.2
    · rename_i hc
      refine h.step hn rfl hp rfl rfl (fun _ => rfl) fun it hth hf => ?_
      have hclosed : a.closed = true := by
        cases hcl : a.closed with
        | true => rfl
        | false => exact absurd ⟨hth, hcl⟩ hc
      refine ⟨hf.iter, hf.ending, fun hcl => ?_, ?_, hf.published.mono hp⟩
      · cases hclosed.symm.trans hcl
      · have hst (o : Except Exc Unit) : th.state ≠ .done o := fun ho => by cases hs.symm.trans ho
        refine (Thread.ends_iff ?_).2 ((Thread.ends_iff hst).1 hf.ends)
        exact hst
  | threadFails n e =>
    obtain ⟨th, ev, rest, hn, hs, hr, rfl⟩ := ht
    simp only [Attempt.see]
    split
    · rename_i hth
      refine h.step hn rfl List.prefix_rfl rfl rfl (fun hne => absurd hth hne) fun it _ hf => ?_
      refine ⟨hf.iter, hf.ending, hf.remaining, ?_, hf.published⟩
      exact ⟨e, rfl⟩
    · rename_i hth
      exact h.step hn rfl List.prefix_rfl rfl rfl (fun _ => rfl) fun it ha => absurd ha hth
  | threadEnd n =>
    obtain ⟨th, hn, hs, hr, rfl⟩ := ht
    refine h.step hn rfl List.prefix_rfl rfl rfl (fun _ => rfl) fun it _ hf => ?_
    refine ⟨hf.iter, hf.ending, hf.remaining, ?_, hf.published⟩
    have hcut : a.cut = false := hf.uncut hs fun o ho => by cases ho
    simp only [Thread.Ends, Attempt.see, hcut, Bool.false_eq_true, ↓reduceIte, hr, and_self]
  | expire p =>
    obtain ⟨_, rfl⟩ := ht
    exact h.mono (onward_of_eq rfl rfl)
  | elapse p | beat τ =>
    obtain ⟨_, _, _, rfl⟩ := ht
    exact h.mono (onward_of_eq rfl rfl)
  | refresh τ held =>
    obtain ⟨hb, _, _, _, rfl⟩ := ht
    refine h.mono ?_
    unfold World.onRedis Redis.evalRefresh
    dsimp only
    split <;> exact onward_of_eq rfl rfl
  | beatFails τ e =>
    obtain ⟨_, _, _, _, rfl⟩ := ht
    exact h.mono (onward_of_eq rfl rfl)
  | stop =>
    cases ht
    exact h.mono (onward_of_eq rfl rfl)

/-- The thread is at its end, and what was due has been published. -/
theorem Feeds.over {it : Iter Event} {th : Thread Event} {o : Except Exc Unit}
    (h : Feeds S w a it th) (ho : th.state = .done o) (hc : a.closed = false) :
    a.forwarded = a.due ∧ (a.unsaved = false → a.sound = o.toBool) := by
  have he := h.ends
  unfold Thread.Ends at he
  rw [ho] at he
  simp only [Attempt.forwarded, Attempt.due, Attempt.sound, h.iter, Option.elim_some,
    Option.any_some]
  cases hcut : a.cut with
  | true =>
    simp only [hcut, ↓reduceIte] at he
    obtain ⟨e, rfl⟩ := he
    refine ⟨rfl, fun _ => ?_⟩
    simp only [Bool.not_true, Bool.and_false, Bool.false_and]
    rfl
  | false =>
    simp only [hcut, Bool.false_eq_true, ↓reduceIte] at he
    obtain ⟨rfl, hr⟩ := he
    have hdrop : it.events.drop a.sent = [] := (h.remaining hc).symm.trans hr
    have htake : it.events.take a.sent = it.events := by
      rw [← List.append_nil (it.events.take a.sent), ← hdrop, List.take_append_drop]
    refine ⟨htake, fun hu => ?_⟩
    simp only [h.ending, hu, Bool.not_false, Bool.and_true]

theorem Fed.published (h : Fed S w a)
    (hid : ∀ n, a.thread = some n → ∃ th, w.threads[n]? = some th ∧ th.taskId = id) :
    Forwarded S w id a.forwarded := by
  cases ht : a.thread with
  | none =>
    rw [Attempt.forwarded, h.without ht]
    exact ⟨[], .nil, List.nil_sublist _⟩
  | some n =>
    obtain ⟨it, th, hth, hf⟩ := h.feeds n ht
    obtain ⟨th', hth', rfl⟩ := hid n ht
    cases hth.symm.trans hth'
    rw [Attempt.forwarded, hf.iter]
    exact hf.published

/-- Threads keep their task, and those that are done stay as they are. -/
def Later (w w' : World Text Event) : Prop :=
  ∀ (n : Nat) (th : Thread Event), w.threads[n]? = some th → ∃ th', w'.threads[n]? = some th' ∧
    th'.taskId = th.taskId ∧ ∀ o, th.state = .done o → th' = th

theorem Onward.later (h : Onward w w') : Later w w' := by
  intro n th hn
  rcases h.threads n th hn with hn' | ⟨hq, hn'⟩
  · exact ⟨th, hn', rfl, fun _ _ => rfl⟩
  · exact ⟨_, hn', rfl, fun o ho => by cases hq.symm.trans ho⟩

theorem later_of_eq (h : w'.threads = w.threads) : Later w w' :=
  fun _ th hn => ⟨th, by rwa [h], rfl, fun _ _ => rfl⟩

theorem later_setThread {n : Nat} {th th' : Thread Event} (hn : w.threads[n]? = some th)
    (hw : w'.threads = w.threads.set n th') (hid : th'.taskId = th.taskId)
    (hs : ∀ o, th.state ≠ .done o) : Later w w' := by
  intro m thm hm
  rw [hw]
  by_cases hnm : n = m
  · subst hnm
    cases hn.symm.trans hm
    exact ⟨th', List.getElem?_set_self (List.getElem?_eq_some_iff.1 hn).1, hid,
      fun o ho => absurd ho (hs o)⟩
  · exact ⟨thm, by rwa [List.getElem?_set_ne hnm], rfl, fun _ _ => rfl⟩

theorem tick_later {e : Tick} (ht : tick S e w w') : Later w w' := by
  cases e with
  | threadStart n =>
    obtain ⟨th, hn, hq, rfl⟩ := ht
    exact later_setThread hn rfl rfl fun o ho => by cases hq.symm.trans ho
  | threadPublish n =>
    obtain ⟨th, ev, rest, data, hn, hs, hr, hd, rfl⟩ := ht
    exact later_setThread hn rfl rfl fun o ho => by cases hs.symm.trans ho
  | threadFails n e =>
    obtain ⟨th, ev, rest, hn, hs, hr, rfl⟩ := ht
    exact later_setThread hn rfl rfl fun o ho => by cases hs.symm.trans ho
  | threadEnd n =>
    obtain ⟨th, hn, hs, hr, rfl⟩ := ht
    exact later_setThread hn rfl rfl fun o ho => by cases hs.symm.trans ho
  | expire p =>
    obtain ⟨_, rfl⟩ := ht
    exact later_of_eq rfl
  | elapse p | beat τ =>
    obtain ⟨_, _, _, rfl⟩ := ht
    exact later_of_eq rfl
  | refresh τ held | beatFails τ e =>
    obtain ⟨_, _, _, _, rfl⟩ := ht
    exact later_of_eq rfl
  | stop =>
    cases ht
    exact later_of_eq rfl

namespace Attempt

/-- The thread of an attempt at this task has come to its end, and everything due was published. -/
structure Over (w : World Text Event) (id : String) (a : Attempt Event) : Prop where
  done : ∀ n, a.thread = some n →
    ∃ th o, w.threads[n]? = some th ∧ th.state = .done o ∧ th.taskId = id
  whole : a.forwarded = a.due

/-- What is known of the attempt, by how far the process is. -/
def At (w : World Text Event) (a : Attempt Event) : Progress → Prop
  | .taken _ | .locked _ | .running _ | .started _ => a = {}
  | .streaming t n => a.thread = some n ∧ a.unsaved = false ∧ a.closed = false ∧
      ∃ th, w.threads[n]? = some th ∧ th.taskId = t.taskId
  | .streamed t => a.Over w t.taskId ∧ a.sound = true
  | .failed t cls => cls ≠ .cancelled → a.Over w t.taskId ∧ a.sound = false
  | .retrying t => a.Over w t.taskId ∧ a.sound = false
  | .finishing t => t.status = .success → a.Over w t.taskId
  | _ => True

theorem over_new : Over w id {} := ⟨fun _ h => (by cases h), rfl⟩

theorem Over.later (h : a.Over w id) (hw : Later w w') : a.Over w' id := by
  refine ⟨fun n hn => ?_, h.whole⟩
  obtain ⟨th, o, hth, ho, hid⟩ := h.done n hn
  obtain ⟨th', hth', _, hdone⟩ := hw n th hth
  obtain rfl := hdone o ho
  exact ⟨_, o, hth', ho, hid⟩

theorem At.later {d : Progress} (h : a.At w d) (hw : Later w w') : a.At w' d := by
  cases d with
  | streaming t n =>
    obtain ⟨hn, hu, hc, th, hth, hid⟩ := h
    obtain ⟨th', hth', hid', _⟩ := hw n th hth
    exact ⟨hn, hu, hc, th', hth', hid'.trans hid⟩
  | streamed t | retrying t => exact ⟨h.1.later hw, h.2⟩
  | failed t cls => exact fun hc => ⟨(h hc).1.later hw, (h hc).2⟩
  | finishing t => exact fun hs => (h hs).later hw
  | _ => exact h

theorem see_new (e : Tick) : ({} : Attempt Event).see e = {} := by
  cases e with
  | threadPublish n | threadFails n e =>
    simp only [see, reduceCtorEq, false_and, ↓reduceIte]
  | _ => rfl

theorem see_fields (a : Attempt Event) (e : Tick) :
    (a.see e).thread = a.thread ∧ (a.see e).unsaved = a.unsaved ∧
      (a.see e).closed = a.closed := by
  cases e with
  | threadPublish n | threadFails n e =>
    simp only [see]
    split <;> exact ⟨rfl, rfl, rfl⟩
  | _ => exact ⟨rfl, rfl, rfl⟩

/-- Nothing more is seen of an attempt whose thread is at its end. -/
theorem Over.see {e : Tick} (h : a.Over w id) (ht : tick S e w w') : a.see e = a := by
  have hrun {n : Nat} {th : Thread Event} (hth : w.threads[n]? = some th)
      (hs : th.state = .running) : a.thread ≠ some n := by
    intro hn
    obtain ⟨th', o, hth', ho, _⟩ := h.done n hn
    cases hth.symm.trans hth'
    cases hs.symm.trans ho
  cases e with
  | threadPublish n =>
    obtain ⟨th, _, _, _, hn, hs, _⟩ := ht
    exact if_neg fun hc => hrun hn hs hc.1
  | threadFails n e =>
    obtain ⟨th, _, _, hn, hs, _⟩ := ht
    exact if_neg (hrun hn hs)
  | _ => rfl

theorem At.see {e : Tick} {d : Progress} (h : a.At w d) (ht : tick S e w w') :
    (a.see e).At w' d := by
  have hl := tick_later ht
  cases d with
  | taken t | locked t | running t | started t =>
    obtain rfl : a = {} := h
    exact see_new e
  | streaming t n =>
    obtain ⟨h₁, h₂, h₃⟩ := a.see_fields e
    obtain ⟨hn, hu, hc, th, hth, hid⟩ := h
    obtain ⟨th', hth', hid', _⟩ := hl n th hth
    exact ⟨h₁.trans hn, h₂.trans hu, h₃.trans hc, th', hth', hid'.trans hid⟩
  | streamed t | retrying t =>
    rw [h.1.see ht]
    exact At.later h hl
  | failed t cls =>
    intro hc
    rw [(h hc).1.see ht]
    exact ⟨(h hc).1.later hl, (h hc).2⟩
  | finishing t =>
    intro hs
    rw [(h hs).see ht]
    exact (h hs).later hl
  | _ => trivial

theorem after_background {c : Cmd Text Event} (hc : c.background = true) (a : Attempt Event)
    (r : c.Answer) : a.after c r = a := by
  cases c with
  | brpop | runInExecutor _ _ _ | set _ _ | delDigest _ | publish _ _ => cases hc
  | _ => rfl

theorem sound_unsaved (h : a.unsaved = true) : a.sound = false := by
  unfold sound
  cases a.iter with
  | none => rfl
  | some it => simp only [Option.any_some, h, Bool.not_true, Bool.and_false]

theorem Over.congr {b : Attempt Event} (h : a.Over w id) (ht : b.thread = a.thread)
    (hf : b.forwarded = a.forwarded) (hd : b.due = a.due) : b.Over w id :=
  ⟨fun n hn => h.done n (ht ▸ hn), by rw [hf, hd, h.whole]⟩

theorem at_settle {α : Type} {r : Except Exc α} {g : Progress} {f : Exc → Progress}
    (hg : ∀ v, r = .ok v → a.At w g) (hf : ∀ e, r = .error e → a.At w (f e)) :
    a.At w (settle r g f) := by
  cases r with
  | ok v => exact hg v rfl
  | error e => exact hf e rfl

theorem at_granted {r : Except Exc Bool} {d d' : Progress} (hd : a.At w d) (hd' : a.At w d') :
    a.At w (granted r d d') := by
  rcases r with e | _ | _
  · trivial
  · exact hd'
  · exact hd

theorem at_entered (t : Task) : a.At w (entered t) := by
  unfold entered
  split <;> trivial

theorem at_finished {t : Task} (h : t.status = .success → a.Over w t.taskId) :
    a.At w (finished t) := by
  unfold finished
  split
  · trivial
  · exact h

end Attempt

variable [TaskJson Text] {sp : Kind → World Text Event → World Text Event → Prop}
  {ex : Kind → Except Exc Returned → World Text Event → World Text Event → Option Kind → Prop}
  {i : Nat} {l : SysLabel Text Event} {tr : List (SysLabel Text Event)} {d : Progress}

theorem answer_onward {c : Cmd Text Event} {r : c.Answer}
    (h : (orchestrator Text S sp ex).Answer i c r w w' l) : Onward w w' := by
  cases h with
  | cmd h => exact exec_onward h
  | abort h =>
    obtain ⟨_, _, _, rfl | ⟨_, h⟩⟩ := h
    · exact onward_giveUp c w
    · exact exec_onward h

theorem attemptOf_answer {c : Cmd Text Event} {r : c.Answer}
    (h : (orchestrator Text S sp ex).Answer i c r w w' l) (j : Nat) :
    attemptOf j (l :: tr) = if i = j then (attemptOf j tr).after c r else attemptOf j tr := by
  cases h <;> rfl

theorem Fed.after {c : Cmd Text Event} {r : c.Answer} (h : Fed S w a)
    (ha : (orchestrator Text S sp ex).Answer i c r w w' l) : Fed S w' (a.after c r) := by
  have hm := h.mono (answer_onward ha)
  cases c with
  | brpop => exact fed_new
  | runInExecutor id p it =>
    cases r with
    | error e => exact hm
    | ok n =>
      cases ha with
      | abort hx =>
        obtain ⟨_, he, _⟩ := hx
        cases he
      | cmd hx =>
        obtain ⟨hn, rfl⟩ := hx
        obtain rfl := Except.ok.inj hn
        refine ⟨fun m hm => ?_, fun hn => by cases hn⟩
        obtain rfl := Option.some.inj hm
        exact ⟨it, _, List.getElem?_concat_length, rfl, rfl, fun _ => rfl, rfl,
          [], .nil, List.nil_sublist _⟩
  | set _ _ | delDigest _ =>
    cases r with
    | ok _ => exact hm
    | error e => exact hm.aside rfl rfl rfl rfl id
  | publish _ _ => exact hm.aside rfl rfl rfl rfl fun h => by cases h
  | _ => exact hm

namespace Attempt

/-- The wait for the stream comes to its end. -/
theorem At.wait {t : Task} {n : Nat} {timeout : Rat} {r : Except Exc Unit} (hf : Fed S w a)
    (h : a.At w (.streaming t n))
    (ha : (orchestrator Text S sp ex).Answer i (.awaitFuture n timeout) r w w' l) :
    a.At w' (settle r (.streamed t) (cutShort t)) := by
  obtain ⟨hn, hu, hc, th, hth, hid⟩ := h
  have hcut (e : Exc) (he : e.cls = .timeout ∨ e.cls = .cancelled) : a.At w' (cutShort t e) := by
    unfold cutShort
    rcases he with he | he
    · rw [if_pos he]
      exact fun hne => absurd rfl hne
    · rw [he]
      exact fun hne => absurd rfl hne
  cases ha with
  | abort hx =>
    obtain ⟨e, rfl, ⟨_, he⟩ | ⟨he, _⟩, _⟩ := hx
    · exact hcut e (.inr he)
    · cases he
  | cmd hx =>
    obtain ⟨th', o, hth', ho, rfl, rfl⟩ | ⟨_, ⟨m, rfl⟩, rfl⟩ := hx
    · cases hth.symm.trans hth'
      obtain ⟨it, th', hth', hfeed⟩ := hf.feeds n hn
      cases hth.symm.trans hth'
      obtain ⟨hw, hs⟩ := hfeed.over ho hc
      have hover : a.Over w' t.taskId := by
        refine ⟨fun m hm => ?_, hw⟩
        obtain rfl := Option.some.inj (hn.symm.trans hm)
        exact ⟨th, o, hth, ho, hid⟩
      cases o with
      | ok _ => exact ⟨hover, hs hu⟩
      | error e =>
        have hfailed (cls : ExcClass) : a.At w' (.failed t cls) := fun _ => ⟨hover, hs hu⟩
        change a.At w' (cutShort t (convertFutureExc e))
        unfold cutShort
        split
        · exact hfailed _
        · exact hfailed _
    · exact hcut _ (.inl rfl)

theorem At.move {c : Cmd Text Event} {r : c.Answer} (hf : Fed S w a) (h : a.At w d)
    (ha : (orchestrator Text S sp ex).Answer i c r w w' l) (hm : Move S d c r d') :
    (a.after c r).At w' d' := by
  have hl := (answer_onward ha).later
  have hunsaved {u : Task} {b : Attempt Event} (cls : ExcClass) (hb : b.Over w' u.taskId)
      (hs : b.unsaved = true) : b.At w' (.failed u cls) := fun _ => ⟨hb, sound_unsaved hs⟩
  cases hm with
  | background hc =>
    rw [after_background hc]
    exact h.later hl
  | read _ _ | requeue _ | requeueMarked | queue | popNothing _ | leave | close | closeHalted =>
    trivial
  | pop _ => rfl
  | mark _ _ _ | register _ | halt _ _ | retry _ _ _ _ =>
    exact at_settle (fun _ _ => trivial) fun _ _ => trivial
  | index => exact at_settle (fun _ _ => at_entered _) fun _ _ => trivial
  | store _ _ => exact at_granted trivial trivial
  | acquire => exact at_granted h trivial
  | run _ _ =>
    refine at_settle ?_ fun _ _ => trivial
    rintro _ rfl
    exact h
  | reject _ hs | fail _ _ hs | abandon _ _ hs =>
    refine at_settle (fun _ _ => at_finished fun hu => ?_) fun _ _ => trivial
    cases hs.symm.trans hu
  | start =>
    obtain rfl : a = {} := h
    exact at_settle (fun _ _ => rfl) fun _ _ _ => ⟨over_new, rfl⟩
  | launch =>
    cases ha with
    | abort hx =>
      obtain ⟨_, he, _⟩ := hx
      cases he
    | cmd hx =>
      obtain ⟨hn, rfl⟩ := hx
      obtain rfl := Except.ok.inj hn
      exact ⟨rfl, rfl, rfl, _, List.getElem?_concat_length, rfl⟩
  | wait => exact h.wait hf ha
  | succeed hu hs =>
    have hover := h.1.later hl
    rw [← hu.1.1] at hover
    apply at_settle
    · rintro _ rfl
      exact at_finished fun _ => hover
    · rintro e rfl
      exact hunsaved _ (hover.congr rfl rfl rfl) rfl
  | hangUp =>
    obtain ⟨ho, hs⟩ := h (by decide)
    exact at_settle (fun _ _ => ⟨(ho.later hl).congr rfl rfl rfl, hs⟩) fun _ _ => trivial
  | stolen =>
    obtain ⟨ho, hs⟩ := h (by decide)
    exact ⟨ho.later hl, hs⟩
  | clear =>
    refine at_settle (fun _ _ => trivial) ?_
    rintro e rfl
    unfold unclear
    split
    · rename_i hs
      exact hunsaved _ (((h hs).later hl).congr rfl rfl rfl) rfl
    · trivial

end Attempt

/-- A status that is final, its events and its attempt. -/
theorem Attempt.At.verdict {c : Cmd Text Event} {r : c.Answer} {x : Text} {u : Task}
    (h : a.At w d) (hm : Move S d c r d') (hc : c = .set id x) (hx : parse x = some u)
    (hu : u.isTerminal = true) :
    a.Over w u.taskId ∧ u.status = if a.sound then .success else .failed := by
  have hne {v : Task} (he : (.set v.taskId (modelDumpJson v) : Cmd Text Event) = .set id x)
      (hs : v.status.isTerminal = false) : False := by
    cases he
    obtain rfl := Option.some.inj ((parse_dump v).symm.trans hx)
    cases hs.symm.trans hu
  have hfail {t v : Task} (he : (.set v.taskId (modelDumpJson v) : Cmd Text Event) = .set id x)
      (ho : a.Over w t.taskId) (hs : a.sound = false) (hv : v.Alike t) (hst : v.status = .failed) :
      a.Over w u.taskId ∧ u.status = if a.sound then .success else .failed := by
    cases he
    obtain rfl := Option.some.inj ((parse_dump v).symm.trans hx)
    rw [hv.1.1, hs]
    exact ⟨ho, hst⟩
  cases hm with
  | background hb =>
    rw [hc] at hb
    cases hb
  | mark _ _ hs | run _ hs | halt _ hs | retry _ _ _ hs =>
    exact (hne hc (by rw [hs]; rfl)).elim
  | reject hv hs =>
    obtain rfl : a = {} := h
    exact hfail hc over_new rfl hv hs
  | succeed hv hs =>
    cases hc
    rename_i v _
    obtain rfl := Option.some.inj ((parse_dump v).symm.trans hx)
    rw [hv.1.1, h.2]
    exact ⟨h.1, hs⟩
  | fail he hv hs =>
    obtain ⟨ho, hsd⟩ := h he.2.2.1
    exact hfail hc ho hsd hv hs
  | abandon _ hv hs => exact hfail hc h.1 h.2 hv hs
  | _ => cases hc

/-- A final status that has just been written, and what was published before. -/
def Judged (S : Setup Event) (w : World Text Event) : List (SysLabel Text Event) → Prop
  | [] => True
  | l :: tr => ∀ i x t, writes l = some (i, x) → parse x = some t → t.isTerminal = true →
      Forwarded S w t.taskId (attemptOf i tr).forwarded ∧
      (attemptOf i tr).forwarded = (attemptOf i tr).due ∧
      t.status = if (attemptOf i tr).sound then .success else .failed

def attempted (Text : Type) [TaskJson Text] (S : Setup Event) :
    Assertion (orchestrator Text S spawn exit) Progress where
  ok := anyway
  inv tr w ds := (∀ i, Fed S w (attemptOf i tr)) ∧ (∀ i, (attemptOf i tr).At w (ds i)) ∧
    Judged S w tr
  guar _ _ _ := True

theorem judged_of_none (h : writes l = none) : Judged S w (l :: tr) := by
  intro i x t hw
  cases h.symm.trans hw

theorem judged_move {ds : Nat → Progress} {c : Cmd Text Event} {r : c.Answer}
    (hf : ∀ i, Fed S w (attemptOf i tr)) (h : ∀ i, (attemptOf i tr).At w (ds i))
    (ha : (orchestrator Text S sp ex).Answer i c r w w' l) (hm : Move S (ds i) c r d) :
    Judged S w' (l :: tr) := by
  intro j x u hw hx hu
  obtain ⟨rfl, id, rfl⟩ := writes_answer ha hw
  obtain ⟨ho, hs⟩ := (h j).verdict hm rfl hx hu
  refine ⟨((hf j).published fun n hn => ?_).mono (answer_onward ha).published, ho.whole, hs⟩
  obtain ⟨th, _, hth, _, hid⟩ := ho.done n hn
  exact ⟨th, hth, hid⟩

theorem attempted_tracked : Tracked (attempted Text S) World.init where
  start := ⟨fun _ => fed_new, fun _ => trivial, trivial⟩
  move tr w ds i c r w' l d hi ha _ hm := by
    obtain ⟨hf, h, _⟩ := hi
    refine ⟨trivial, fun j => ?_, fun j => ?_, judged_move hf h ha hm⟩
    · rw [attemptOf_answer ha]
      split
      · exact (hf j).after ha
      · exact (hf j).mono (answer_onward ha)
    · rw [attemptOf_answer ha]
      split
      · rename_i hij
        subst hij
        rw [Function.update_self]
        exact (h i).move (hf i) ha hm
      · rename_i hij
        rw [Function.update_of_ne (Ne.symm hij)]
        exact (h j).later (answer_onward ha).later
  spawn tr w ds i q w' hi _ hs _ := by
    obtain ⟨hf, h, _⟩ := hi
    have hw : Onward w w' := by
      cases q <;> obtain ⟨_, rfl⟩ := hs <;> exact onward_of_eq rfl rfl
    refine ⟨trivial, fun j => ?_, fun j => ?_, judged_of_none rfl⟩
    · rw [attemptOf]
      split
      · exact fed_new
      · exact (hf j).mono hw
    · rw [attemptOf]
      by_cases hij : i = j
      · subst hij
        rw [Function.update_self]
        cases q <;> trivial
      · rw [if_neg hij, Function.update_of_ne (Ne.symm hij)]
        exact (h j).later hw.later
  exit tr w ds i q b w' o hi _ he _ := by
    obtain ⟨hf, h, _⟩ := hi
    have hw : Onward w w' := by
      cases q <;> cases b <;> obtain ⟨_, rfl⟩ := he <;> exact onward_of_eq rfl rfl
    refine ⟨trivial, fun j => ?_, fun j => ?_, judged_of_none rfl⟩
    · rw [attemptOf]
      split
      · exact fed_new
      · exact (hf j).mono hw
    · rw [attemptOf]
      by_cases hij : i = j
      · subst hij
        rw [Function.update_self]
        rcases o with _ | _ | _ | _ <;> trivial
      · rw [if_neg hij, Function.update_of_ne (Ne.symm hij)]
        exact (h j).later hw.later
  env tr w ds e w' hi ht _ := by
    obtain ⟨hf, h, _⟩ := hi
    exact ⟨trivial, fun j => (hf j).see ht, fun j => (h j).see ht, judged_of_none rfl⟩
  halt tr w ds w' _ hh _ := ⟨trivial, fun _ => fed_new, fun _ => trivial, judged_of_none rfl⟩

/-- Whenever a final status is written: what the attempt has forwarded is on the channel, and it
agrees with the status just when the events of the engine suit the way the attempt ended. -/
theorem verdict_law (name : Event → String) {s : SysConfig Text Event} {x : Text} {t : Task}
    (hr : Run (system Text S) anyway (.idle .init) (l :: tr) s) (hw : writes l = some (i, x))
    (hx : parse x = some t) (ht : t.isTerminal = true) :
    Forwarded S s.world t.taskId (attemptOf i tr).forwarded ∧
      (Agrees name t.status (attemptOf i tr).forwarded ↔ (attemptOf i tr).Suits name) := by
  have hA : Tracked (attempted Text S) World.init := attempted_tracked
  obtain ⟨ds, _, _, hj⟩ := hA.sound.inv hr
  obtain ⟨hp, hd, hs⟩ := hj i x t hw hx ht
  refine ⟨hp, ?_⟩
  rw [Attempt.Suits, ← hs, hd]

end

/-- A turn whose stream gives one event and ends well, up to the end of the thread. -/
def oneEvent (ev : String) : Schedule :=
  start ++ create 1 ++ [.spawn 2 .worker] ++ go 2 9 ++ [.cmd 2 (.yields ⟨[ev], .ok ()⟩)] ++
    go 2 1 ++ [.env (.threadStart 0), .env (.threadPublish 0), .env (.threadEnd 0)]

/-- A turn whose engine cannot be built. -/
def noEngine : Schedule :=
  start ++ create 1 ++ [.spawn 2 .worker] ++ go 2 4 ++ [.cmd 2 (.raises ⟨.other, "no engine"⟩)] ++
    go 2 2

/-- The status that the latest step has written, and the events before it. -/
def latestVerdict : List (SysLabel Task String) → Option (TaskStatus × List String)
  | [] => none
  | l :: tr => (writes l).bind fun w => (parse w.2).map fun t =>
      (t.status, (attemptOf w.1 tr).forwarded)

theorem latestVerdict_eq {tr : List (SysLabel Task String)} {st : TaskStatus} {evs : List String}
    (h : latestVerdict tr = some (st, evs)) : ∃ l tr' i x t, tr = l :: tr' ∧
      writes l = some (i, x) ∧ (parse x : Option Task) = some t ∧ t.status = st ∧
      (attemptOf i tr').forwarded = evs := by
  cases tr with
  | nil => cases h
  | cons l tr =>
    obtain ⟨⟨i, x⟩, hw, h⟩ := Option.bind_eq_some_iff.1 h
    obtain ⟨t, hx, h⟩ := Option.map_eq_some_iff.1 h
    obtain ⟨hst, hevs⟩ := Prod.mk.inj h
    exact ⟨l, tr, i, x, t, rfl, hw, hx, hst, hevs⟩

theorem verdict_law_complete : ∃ l tr s i x t, DemoRun anyway (l :: tr) s ∧
    writes l = some (i, x) ∧ parse x = some t ∧ t.status = .success ∧
    Forwarded demo s.world t.taskId ["workflow_complete"] ∧
    (Agrees id t.status ["workflow_complete"] ↔ (attemptOf i tr).Suits id) := by
  obtain ⟨tr, s, hr, hs⟩ := demoDriver.drive_observe anyway (.idle .init)
    (oneEvent "workflow_complete" ++ go 2 3) (fun o => latestVerdict o.1)
    (show _ = some (TaskStatus.success, ["workflow_complete"]) by decide)
  obtain ⟨l, tr, i, x, t, rfl, hw, hx, hst, hevs⟩ := latestVerdict_eq hs
  have ht : t.isTerminal = true := by
    rw [Task.isTerminal, hst]
    rfl
  refine ⟨l, tr, s, i, x, t, hr, hw, hx, hst, ?_⟩
  rw [← hevs]
  exact verdict_law id hr hw hx ht

theorem not_verdict_law : ¬∀ l tr s i x t, DemoRun anyway (l :: tr) s → writes l = some (i, x) →
    parse x = some t → t.isTerminal = true →
    Agrees id t.status (attemptOf i tr).forwarded := by
  intro h
  obtain ⟨tr, s, hr, hs⟩ := demoDriver.drive_observe anyway (.idle .init) noEngine
    (fun o => latestVerdict o.1) (show _ = some (TaskStatus.failed, []) by decide)
  obtain ⟨l, tr, i, x, t, rfl, hw, hx, hst, hevs⟩ := latestVerdict_eq hs
  have ht : t.isTerminal = true := by
    rw [Task.isTerminal, hst]
    rfl
  have hag := h l tr s i x t hr hw hx ht
  rw [hevs] at hag
  obtain ⟨_, hev, _⟩ := (hag.2 hst).1
  cases hev

end Orchestrator
