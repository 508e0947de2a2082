import Mathlib.Logic.Relation
import Mathlib.Data.Fintype.EquivFin
import Orchestrator.Concurrency.Coroutine

namespace Concurrency
open Relation
set_option autoImplicit true

/-- Code for a thread. `call` is a command that the thread itself carries out; at `await` and
`wait` a coroutine gives the thread back to the loop; `result` blocks the thread. -/
inductive Code (C : Type) (R : C → Type) (ε : Type) where
  | ret (o : Except ε Unit)
  | call (c : C) (k : R c → Code C R ε)
  | await (c : C) (k : R c → Code C R ε)
  | getRunningLoop (k : Except ε Unit → Code C R ε)
  | runCoroutineThreadsafe (p : Code C R ε) (k : Nat → Code C R ε)
  | runInExecutor (p : Code C R ε) (k : Nat → Code C R ε)
  | result (n : Nat) (k : Except ε Unit → Code C R ε)
  | wait (n : Nat) (k : Except ε Unit → Code C R ε)

/-- A coroutine that only waits for commands. -/
def Code.ofCoro : Coro C R (Except ε Unit) → Code C R ε
  | .ret o => .ret o
  | .await c k => .await c fun r => ofCoro (k r)

/-- Go on unless there was an exception. -/
def Code.orRaise (p : Code C R ε) : Except ε Unit → Code C R ε
  | .ok _ => p
  | .error e => .ret (.error e)

/-- What the code runs against: the replies to commands, what others do to the world, and the
two exceptions of asyncio. -/
structure Host (C : Type) (R : C → Type) (ε σ : Type) where
  exec : (c : C) → R c → σ → σ → Prop
  env : σ → σ → Prop
  noRunningLoop : ε
  timeout : ε

/-- An event loop: the callback that its thread runs, the callbacks that are ready, the coroutines
that wait, the threads of the executor, and the results of futures. What runs is listed with the
number of its future. -/
structure Loop (C : Type) (R : C → Type) (ε σ : Type) where
  world : σ
  running : Option (Nat × Code C R ε)
  ready : List (Nat × Code C R ε)
  suspended : List (Nat × Code C R ε)
  executor : List (Nat × Code C R ε)
  done : List (Nat × Except ε Unit)

namespace Loop
variable {C : Type} {R : C → Type} {ε σ : Type}

/-- The numbers of the futures. -/
def used (s : Loop C R ε σ) : List Nat :=
  s.running.toList.map (·.1) ++ s.ready.map (·.1) ++ s.suspended.map (·.1) ++
    s.executor.map (·.1) ++ s.done.map (·.1)

theorem exists_unused (s : Loop C R ε σ) : ∃ n, n ∉ s.used := by
  obtain ⟨n, hn⟩ := Infinite.exists_notMem_finset s.used.toFinset
  exact ⟨n, fun h => hn (List.mem_toFinset.2 h)⟩

def setThread (s : Loop C R ε σ) (f : Nat) (p : Code C R ε) : Loop C R ε σ :=
  { s with executor := s.executor.map fun j => if j.1 = f then (f, p) else j }

/-- A step of a thread within its code. `onLoop` tells whether the thread runs the loop. -/
inductive Advance (H : Host C R ε σ) (onLoop : Bool) :
    Loop C R ε σ → Code C R ε → Loop C R ε σ → Code C R ε → Prop where
  | call (h : H.exec c r s.world w) : Advance H onLoop s (.call c k) { s with world := w } (k r)
  | getRunningLoop : Advance H onLoop s (.getRunningLoop k) s
      (k (if onLoop then .ok () else .error H.noRunningLoop))
  | runCoroutineThreadsafe (hn : n ∉ s.used) : Advance H onLoop s (.runCoroutineThreadsafe p k)
      { s with ready := s.ready ++ [(n, p)] } (k n)
  | runInExecutor (hn : n ∉ s.used) : Advance H onLoop s (.runInExecutor p k)
      { s with executor := s.executor ++ [(n, p)] } (k n)
  | result (ho : (n, o) ∈ s.done) : Advance H onLoop s (.result n k) s (k o)
  | timeout (hn : ∀ o, (n, o) ∉ s.done) : Advance H onLoop s (.result n k) s
      (k (.error H.timeout))

/-- Steps that do not need the thread of the loop. -/
inductive Other (H : Host C R ε σ) : Loop C R ε σ → Loop C R ε σ → Prop where
  | env (h : H.env s.world w) : Other H s { s with world := w }
  | reply (hs : (f, .await c k) ∈ s.suspended) (h : H.exec c r s.world w) :
      Other H s { s with
        world := w
        suspended := s.suspended.filter (·.1 ≠ f)
        ready := s.ready ++ [(f, k r)] }
  | wake (hs : (f, .wait n k) ∈ s.suspended) (ho : (n, o) ∈ s.done) :
      Other H s { s with
        suspended := s.suspended.filter (·.1 ≠ f)
        ready := s.ready ++ [(f, k o)] }
  | thread (hs : (f, p) ∈ s.executor) (h : Advance H false s p s' p') :
      Other H s (s'.setThread f p')
  | threadEnd (hs : (f, .ret o) ∈ s.executor) :
      Other H s { s with executor := s.executor.filter (·.1 ≠ f), done := (f, o) :: s.done }

/-- The thread of the loop runs one callback at a time. -/
inductive Step (H : Host C R ε σ) : Loop C R ε σ → Loop C R ε σ → Prop where
  | other (h : Other H s s') : Step H s s'
  | pick (hi : s.running = none) (hr : s.ready = j :: js) :
      Step H s { s with running := some j, ready := js }
  | advance (hp : s.running = some (f, p)) (h : Advance H true s p s' p') :
      Step H s { s' with running := some (f, p') }
  | await (hp : s.running = some (f, .await c k)) :
      Step H s { s with running := none, suspended := s.suspended ++ [(f, .await c k)] }
  | wait (hp : s.running = some (f, .wait n k)) :
      Step H s { s with running := none, suspended := s.suspended ++ [(f, .wait n k)] }
  | finish (hp : s.running = some (f, .ret o)) :
      Step H s { s with running := none, done := (f, o) :: s.done }

/-- Steps while the thread of the loop is in one callback. -/
def Within (H : Host C R ε σ) (f : Nat) (s s' : Loop C R ε σ) : Prop :=
  Step H s s' ∧ ∃ p, s'.running = some (f, p)

/-- A call that the thread of the loop makes in the state `s` returns `o` in the state `s'`. -/
def Call (H : Host C R ε σ) (s : Loop C R ε σ) (p : Code C R ε) (o : Except ε Unit)
    (s' : Loop C R ε σ) : Prop :=
  ∃ f, ReflTransGen (Within H f) { s with running := some (f, p) } s' ∧
    s'.running = some (f, .ret o)

/-- Where the code of a future is, and what is left of it. -/
inductive Place (C : Type) (R : C → Type) (ε : Type) where
  | running (p : Code C R ε)
  | ready (p : Code C R ε)
  | suspended (p : Code C R ε)
  | executor (p : Code C R ε)
  | done (o : Except ε Unit)

def At (s : Loop C R ε σ) (n : Nat) : Place C R ε → Prop
  | .running p => s.running = some (n, p)
  | .ready p => (n, p) ∈ s.ready
  | .suspended p => (n, p) ∈ s.suspended
  | .executor p => (n, p) ∈ s.executor
  | .done o => (n, o) ∈ s.done

/-- What a step from `s` to `s'` can do to the code of one future. -/
inductive Move (H : Host C R ε σ) (s s' : Loop C R ε σ) :
    Place C R ε → Place C R ε → Prop where
  | stay : Move H s s' x x
  | reply (h : H.exec c r w w') : Move H s s' (.suspended (.await c k)) (.ready (k r))
  | wake (ho : (n, o) ∈ s.done) : Move H s s' (.suspended (.wait n k)) (.ready (k o))
  | thread (h : Advance H false s p t p') : Move H s s' (.executor p) (.executor p')
  | threadEnd : Move H s s' (.executor (.ret o)) (.done o)
  | pick : Move H s s' (.ready p) (.running p)
  | advance (hp : s.running = some (f, p)) (h : Advance H true s p t p')
      (ht : s' = { t with running := some (f, p') }) : Move H s s' (.running p) (.running p')
  | await : Move H s s' (.running (.await c k)) (.suspended (.await c k))
  | wait : Move H s s' (.running (.wait n k)) (.suspended (.wait n k))
  | finish : Move H s s' (.running (.ret o)) (.done o)

variable {H : Host C R ε σ} {s s' : Loop C R ε σ} {p p' : Code C R ε} {f n : Nat}

theorem advance_running (h : Advance H b s p s' p') : s'.running = s.running := by
  cases h <;> rfl

theorem other_running (h : Other H s s') : s'.running = s.running := by
  cases h with
  | thread _ h => exact (advance_running h : _)
  | _ => rfl

/-- Within a callback the loop's thread is in its code, and others go on. -/
theorem within_cases (h : Within H f s s') (hp : s.running = some (f, p)) :
    Other H s s' ∨ ∃ t p', Advance H true s p t p' ∧ s' = { t with running := some (f, p') } := by
  obtain ⟨hs, p'', hr⟩ := h
  cases hs with
  | other h => exact .inl h
  | pick hi _ =>
    rw [hi] at hp
    cases hp
  | advance hp' h =>
    rw [hp] at hp'
    cases hp'
    exact .inr ⟨_, _, h, rfl⟩
  | await _ | wait _ | finish _ => cases hr

/-- A callback stays where it is, or comes to its next step in a state that others have led to. -/
theorem call_cases {I : Loop C R ε σ → Prop} (hI : ∀ s s', I s → Other H s s' → I s')
    (h : ReflTransGen (Within H f) s s') (hp : s.running = some (f, p)) (hs : I s) :
    s'.running = some (f, p) ∧ I s' ∨ ∃ t t' p', I t ∧ t.running = some (f, p) ∧
      Advance H true t p t' p' ∧
      ReflTransGen (Within H f) { t' with running := some (f, p') } s' := by
  induction h using ReflTransGen.head_induction_on with
  | refl => exact .inl ⟨hp, hs⟩
  | head hstep hrest ih =>
    rcases within_cases hstep hp with ho | ⟨t, p', ha, rfl⟩
    · exact ih ((other_running ho).trans hp) (hI _ _ hs ho)
    · exact .inr ⟨_, t, p', hs, hp, ha, hrest⟩

/-- The future is that of a coroutine of the loop that has not ended. -/
structure Queued (s : Loop C R ε σ) (n : Nat) : Prop where
  queued : n ∈ s.ready.map (·.1) ++ s.suspended.map (·.1)
  undone : ∀ o, (n, o) ∉ s.done
  elsewhere : ∀ p, (n, p) ∉ s.executor

theorem Queued.advance (h : Queued s n) (ha : Advance H b s p s' p') : Queued s' n := by
  have hused : n ∈ s.used := by
    have := h.queued
    simp only [used, List.mem_append] at this ⊢
    tauto
  cases ha with
  | call _ | getRunningLoop | result _ | timeout _ => exact ⟨h.queued, h.undone, h.elsewhere⟩
  | runCoroutineThreadsafe hm =>
    refine ⟨?_, h.undone, h.elsewhere⟩
    have := h.queued
    simp only [List.map_append, List.mem_append] at this ⊢
    tauto
  | runInExecutor hm =>
    refine ⟨h.queued, h.undone, fun q hq => ?_⟩
    rcases List.mem_append.1 hq with hq | hq
    · exact h.elsewhere q hq
    · cases List.mem_singleton.1 hq
      exact hm hused

theorem mem_setThread {q : Code C R ε} (h : (n, q) ∈ (s.setThread f p).executor) :
    ∃ q, (n, q) ∈ s.executor := by
  obtain ⟨⟨m, q'⟩, hm, he⟩ := List.mem_map.1 h
  refine ⟨q', ?_⟩
  split at he
  · rename_i hf
    cases he
    exact hf ▸ hm
  · cases he
    exact hm

/-- A coroutine that goes on waits in the queue. -/
theorem queued_moved {l l' : List (Nat × Code C R ε)}
    (h : n ∈ l.map (·.1) ++ l'.map (·.1)) :
    n ∈ (l ++ [(f, p)]).map (·.1) ++ (l'.filter (·.1 ≠ f)).map (·.1) := by
  simp only [List.map_append, List.map_cons, List.map_nil, List.mem_append, List.mem_singleton]
  by_cases hn : n = f
  · exact .inl (.inr hn)
  · rcases List.mem_append.1 h with h | h
    · exact .inl (.inl h)
    · obtain ⟨j, hj, rfl⟩ := List.mem_map.1 h
      exact .inr (List.mem_map_of_mem (List.mem_filter.2 ⟨hj, decide_eq_true hn⟩))

theorem Queued.other (h : Queued s n) (ho : Other H s s') : Queued s' n := by
  cases ho with
  | env _ => exact ⟨h.queued, h.undone, h.elsewhere⟩
  | reply _ _ | wake _ _ => exact ⟨queued_moved h.queued, h.undone, h.elsewhere⟩
  | thread _ ha =>
    have h' := h.advance ha
    refine ⟨h'.queued, h'.undone, fun q hq => ?_⟩
    obtain ⟨q', hq'⟩ := mem_setThread hq
    exact h'.elsewhere q' hq'
  | threadEnd hs =>
    refine ⟨h.queued, fun o ho => ?_, fun q hq => h.elsewhere q (List.mem_filter.1 hq).1⟩
    rcases List.mem_cons.1 ho with ho | ho
    · cases ho
      exact h.elsewhere _ hs
    · exact h.undone o ho

/-- A thread that blocks the loop for a coroutine of the loop gets the timeout. -/
theorem timeout_of_queued {k : Except ε Unit → Code C R ε} {o : Except ε Unit}
    (h : ReflTransGen (Within H f) s s') (hs : Queued s n)
    (hp : s.running = some (f, .result n k)) (hr : s'.running = some (f, .ret o)) :
    ∃ t, t.running = some (f, k (.error H.timeout)) ∧ ReflTransGen (Within H f) t s' := by
  have hI (t t' : Loop C R ε σ) (ht : Queued t n) (ho : Other H t t') : Queued t' n := ht.other ho
  rcases call_cases hI h hp hs with ⟨hp', _⟩ | ⟨t, t', p', ht, _, ha, hrest⟩
  · rw [hr] at hp'
    cases hp'
  · cases ha with
    | result ho => exact absurd ho (ht.undone _)
    | timeout hn => exact ⟨_, rfl, hrest⟩

theorem queued_of_unused (hn : n ∉ s.used) :
    Queued { s with ready := s.ready ++ [(n, p)], running := r } n := by
  simp only [used, List.mem_append, not_or] at hn
  refine ⟨?_, fun o ho => hn.2 (List.mem_map_of_mem ho),
    fun q hq => hn.1.2 (List.mem_map_of_mem hq)⟩
  simp only [List.map_append, List.map_cons, List.map_nil, List.mem_append, List.mem_singleton,
    true_or, or_true]

/-- The part of a call that is left when its code comes to the end. -/
theorem call_ret {o o' : Except ε Unit} (h : ReflTransGen (Within H f) s s')
    (hp : s.running = some (f, .ret o)) (hr : s'.running = some (f, .ret o')) : o' = o := by
  rcases call_cases (I := fun _ => True) (fun _ _ _ _ => trivial) h hp trivial with
    ⟨hp', _⟩ | ⟨_, _, _, _, _, ha, _⟩
  · rw [hr] at hp'
    cases hp'
    rfl
  · cases ha

/-- A thread of the loop that hands a coroutine to its own loop and blocks for the result gets a
timeout: the coroutine would need the thread. -/
theorem call_own_loop {o : Except ε Unit} (h : Call H s (.getRunningLoop
    (.orRaise (.runCoroutineThreadsafe p fun n => .result n .ret))) o s') :
    o = .error H.timeout := by
  obtain ⟨f, hr, ho⟩ := h
  have hnext {t : Loop C R ε σ} {q : Code C R ε} (hr : ReflTransGen (Within H f) t s')
      (hp : t.running = some (f, q)) (hq : ∀ o, q ≠ .ret o) : ∃ t₁ t₂ q',
      Advance H true t₁ q t₂ q' ∧
        ReflTransGen (Within H f) { t₂ with running := some (f, q') } s' := by
    rcases call_cases (I := fun _ => True) (fun _ _ _ _ => trivial) hr hp trivial with
      ⟨hp', _⟩ | ⟨t₁, t₂, q', _, _, ha, hr⟩
    · rw [ho] at hp'
      cases hp'
      exact absurd rfl (hq o)
    · exact ⟨t₁, t₂, q', ha, hr⟩
  obtain ⟨t, t', q, ha, hr⟩ := hnext hr rfl fun _ h => by cases h
  cases ha with
  | getRunningLoop =>
    obtain ⟨t, t', q, ha, hr⟩ := hnext hr rfl fun _ h => by cases h
    cases ha with
    | runCoroutineThreadsafe hn =>
      obtain ⟨u, hu, hr⟩ := timeout_of_queued hr (queued_of_unused hn) rfl ho
      exact call_ret hr hu ho

theorem within_advance (hp : s.running = some (f, p)) (h : Advance H true s p s' p') :
    Within H f s { s' with running := some (f, p') } := ⟨.advance hp h, p', rfl⟩

/-- The call does return, whatever there is to do for the loop. -/
theorem exists_call_own_loop (s : Loop C R ε σ) (p : Code C R ε) : ∃ s', Call H s (.getRunningLoop
    (.orRaise (.runCoroutineThreadsafe p fun n => .result n .ret))) (.error H.timeout) s' ∧
    s'.world = s.world := by
  let q : Code C R ε := .runCoroutineThreadsafe p fun n => .result n .ret
  let s₀ : Loop C R ε σ := { s with running := some (0, .getRunningLoop q.orRaise) }
  let s₁ : Loop C R ε σ := { s with running := some (0, q) }
  obtain ⟨n, hn⟩ := s₁.exists_unused
  let s₂ : Loop C R ε σ :=
    { s₁ with ready := s.ready ++ [(n, p)], running := some (0, .result n .ret) }
  have hq : Queued s₂ n := queued_of_unused hn
  have ha : Advance H true s₀ (.getRunningLoop q.orRaise) s₀
      (q.orRaise (if true then .ok () else .error H.noRunningLoop)) := .getRunningLoop
  have h₁ := within_advance (f := 0) (s := s₀) rfl ha
  have h₂ : Within H 0 s₁ s₂ := within_advance rfl (.runCoroutineThreadsafe hn)
  have h₃ : Within H 0 s₂ { s₂ with running := some (0, .ret (.error H.timeout)) } :=
    within_advance rfl (.timeout hq.undone)
  exact ⟨_, ⟨0, .tail (.tail (.single h₁) h₂) h₃, rfl⟩, rfl⟩

theorem mem_used : n ∈ s.used ↔ ∃ x, At s n x := by
  simp only [used, List.mem_append, List.mem_map, Prod.exists, exists_and_right, exists_eq_right,
    Option.mem_toList]
  constructor
  · rintro ((((⟨p, h⟩ | ⟨p, h⟩) | ⟨p, h⟩) | ⟨p, h⟩) | ⟨o, h⟩)
    · exact ⟨.running p, h⟩
    · exact ⟨.ready p, h⟩
    · exact ⟨.suspended p, h⟩
    · exact ⟨.executor p, h⟩
    · exact ⟨.done o, h⟩
  · rintro ⟨x, h⟩
    cases x with
    | running p => exact .inl (.inl (.inl (.inl ⟨p, h⟩)))
    | ready p => exact .inl (.inl (.inl (.inr ⟨p, h⟩)))
    | suspended p => exact .inl (.inl (.inr ⟨p, h⟩))
    | executor p => exact .inl (.inr ⟨p, h⟩)
    | done o => exact .inr ⟨o, h⟩

/-- A thread does nothing to the futures that there are. -/
theorem at_advance (h : Advance H b s p s' p') (hn : n ∈ s.used) {x : Place C R ε} :
    At s' n x ↔ At s n x := by
  cases h with
  | call _ | getRunningLoop | result _ | timeout _ => cases x <;> exact Iff.rfl
  | runCoroutineThreadsafe hm =>
    cases x with
    | ready q =>
      simp only [At, List.mem_append, List.mem_singleton, Prod.mk.injEq]
      exact or_iff_left fun h => hm (h.1 ▸ hn)
    | _ => exact Iff.rfl
  | runInExecutor hm =>
    cases x with
    | executor q =>
      simp only [At, List.mem_append, List.mem_singleton, Prod.mk.injEq]
      exact or_iff_left fun h => hm (h.1 ▸ hn)
    | _ => exact Iff.rfl

/-- What a step can do, seen from one future. -/
theorem move_of_step (h : Step H s s') (hn : n ∈ s.used) {x : Place C R ε} (hx : At s' n x) :
    ∃ y, At s n y ∧ Move H s s' y x := by
  have hstay (h : At s n x) : ∃ y, At s n y ∧ Move H s s' y x := ⟨x, h, .stay⟩
  cases h with
  | other h =>
    cases h with
    | env _ => cases x <;> exact hstay hx
    | reply hs he =>
      cases x with
      | ready q =>
        rcases List.mem_append.1 hx with hx | hx
        · exact hstay hx
        · cases List.mem_singleton.1 hx
          exact ⟨.suspended _, hs, .reply he⟩
      | suspended q => exact hstay (List.mem_filter.1 hx).1
      | _ => exact hstay hx
    | wake hs ho =>
      cases x with
      | ready q =>
        rcases List.mem_append.1 hx with hx | hx
        · exact hstay hx
        · cases List.mem_singleton.1 hx
          exact ⟨.suspended _, hs, .wake ho⟩
      | suspended q => exact hstay (List.mem_filter.1 hx).1
      | _ => exact hstay hx
    | thread hs ha =>
      cases x with
      | executor q =>
        obtain ⟨⟨m, q'⟩, hm, he⟩ := List.mem_map.1 hx
        split at he
        · cases he
          exact ⟨.executor _, hs, .thread ha⟩
        · cases he
          exact hstay ((at_advance ha hn).1 hm)
      | _ => exact hstay ((at_advance ha hn).1 hx)
    | threadEnd hs =>
      cases x with
      | executor q => exact hstay (List.mem_filter.1 hx).1
      | done o =>
        rcases List.mem_cons.1 hx with hx | hx
        · cases hx
          exact ⟨.executor _, hs, .threadEnd⟩
        · exact hstay hx
      | _ => exact hstay hx
  | pick hi hr =>
    cases x with
    | running q =>
      cases hx
      have hx' : (n, q) ∈ s.ready := hr ▸ List.mem_cons_self
      exact ⟨.ready q, hx', .pick⟩
    | ready q =>
      have hx' : (n, q) ∈ s.ready := hr ▸ List.mem_cons_of_mem _ hx
      exact hstay hx'
    | _ => exact hstay hx
  | advance hp ha =>
    cases x with
    | running q =>
      cases hx
      exact ⟨.running _, hp, .advance hp ha rfl⟩
    | ready q => exact hstay ((at_advance ha hn).1 hx)
    | suspended q => exact hstay ((at_advance ha hn).1 hx)
    | executor q => exact hstay ((at_advance ha hn).1 hx)
    | done o => exact hstay ((at_advance ha hn).1 hx)
  | await hp =>
    cases x with
    | running q => cases hx
    | suspended q =>
      rcases List.mem_append.1 hx with hx | hx
      · exact hstay hx
      · cases List.mem_singleton.1 hx
        exact ⟨.running _, hp, .await⟩
    | _ => exact hstay hx
  | wait hp =>
    cases x with
    | running q => cases hx
    | suspended q =>
      rcases List.mem_append.1 hx with hx | hx
      · exact hstay hx
      · cases List.mem_singleton.1 hx
        exact ⟨.running _, hp, .wait⟩
    | _ => exact hstay hx
  | finish hp =>
    cases x with
    | running q => cases hx
    | done o =>
      rcases List.mem_cons.1 hx with hx | hx
      · cases hx
        exact ⟨.running _, hp, .finish⟩
      · exact hstay hx
    | _ => exact hstay hx

/-- What one future leaves behind of a list holds what the list had of another. -/
theorem eq_or_mem_filter {β : Type} {l : List (Nat × β)} {q q' : β} (_ : (f, q') ∈ l)
    (h : (n, q) ∈ l) : n = f ∨ (n, q) ∈ l.filter (·.1 ≠ f) := by
  by_cases hn : n = f
  · exact .inl hn
  · exact .inr (List.mem_filter.2 ⟨h, decide_eq_true hn⟩)

theorem at_setThread (_ : (f, p) ∈ s.executor) {q : Code C R ε}
    (h : (n, q) ∈ s'.executor) : ∃ q, At (s'.setThread f p') n (.executor q) := by
  by_cases hn : n = f
  · subst hn
    exact ⟨p', List.mem_map.2 ⟨_, h, if_pos rfl⟩⟩
  · exact ⟨q, List.mem_map.2 ⟨_, h, if_neg hn⟩⟩

/-- A future does not get lost. -/
theorem used_of_step (h : Step H s s') (hn : n ∈ s.used) : n ∈ s'.used := by
  obtain ⟨x, hx⟩ := mem_used.1 hn
  refine mem_used.2 ?_
  cases h with
  | other h =>
    cases h with
    | env _ => exact ⟨x, by cases x <;> exact hx⟩
    | reply hs _ | wake hs _ =>
      cases x with
      | ready q => exact ⟨.ready q, List.mem_append_left _ hx⟩
      | suspended q =>
        rcases eq_or_mem_filter hs hx with rfl | hx
        · exact ⟨.ready _, List.mem_append_right _ (List.mem_singleton_self _)⟩
        · exact ⟨.suspended q, hx⟩
      | running q => exact ⟨.running q, hx⟩
      | executor q => exact ⟨.executor q, hx⟩
      | done o => exact ⟨.done o, hx⟩
    | thread hs ha =>
      have hx' := (at_advance ha hn).2 hx
      cases x with
      | executor q =>
        obtain ⟨q', hq'⟩ := at_setThread hs hx'
        exact ⟨.executor q', hq'⟩
      | running q => exact ⟨.running q, hx'⟩
      | ready q => exact ⟨.ready q, hx'⟩
      | suspended q => exact ⟨.suspended q, hx'⟩
      | done o => exact ⟨.done o, hx'⟩
    | threadEnd hs =>
      cases x with
      | executor q =>
        rcases eq_or_mem_filter hs hx with rfl | hx
        · exact ⟨.done _, List.mem_cons_self⟩
        · exact ⟨.executor q, hx⟩
      | running q => exact ⟨.running q, hx⟩
      | ready q => exact ⟨.ready q, hx⟩
      | suspended q => exact ⟨.suspended q, hx⟩
      | done o => exact ⟨.done o, List.mem_cons_of_mem _ hx⟩
  | pick hi hr =>
    cases x with
    | running q =>
      have hx : s.running = some (n, q) := hx
      rw [hi] at hx
      cases hx
    | ready q =>
      have hx : (n, q) ∈ s.ready := hx
      rw [hr] at hx
      rcases List.mem_cons.1 hx with rfl | hx
      · exact ⟨.running q, rfl⟩
      · exact ⟨.ready q, hx⟩
    | suspended q => exact ⟨.suspended q, hx⟩
    | executor q => exact ⟨.executor q, hx⟩
    | done o => exact ⟨.done o, hx⟩
  | advance hp ha =>
    have hx' := (at_advance ha hn).2 hx
    cases x with
    | running q =>
      cases hp.symm.trans hx
      exact ⟨.running _, rfl⟩
    | ready q => exact ⟨.ready q, hx'⟩
    | suspended q => exact ⟨.suspended q, hx'⟩
    | executor q => exact ⟨.executor q, hx'⟩
    | done o => exact ⟨.done o, hx'⟩
  | await hp | wait hp =>
    cases x with
    | running q =>
      cases hp.symm.trans hx
      exact ⟨.suspended _, List.mem_append_right _ (List.mem_singleton_self _)⟩
    | ready q => exact ⟨.ready q, hx⟩
    | suspended q => exact ⟨.suspended q, List.mem_append_left _ hx⟩
    | executor q => exact ⟨.executor q, hx⟩
    | done o => exact ⟨.done o, hx⟩
  | finish hp =>
    cases x with
    | running q =>
      cases hp.symm.trans hx
      exact ⟨.done _, List.mem_cons_self⟩
    | ready q => exact ⟨.ready q, hx⟩
    | suspended q => exact ⟨.suspended q, hx⟩
    | executor q => exact ⟨.executor q, hx⟩
    | done o => exact ⟨.done o, List.mem_cons_of_mem _ hx⟩

/-- The future of code that asks for the running loop in a thread of the executor. -/
structure NoLoop (H : Host C R ε σ) (s : Loop C R ε σ) (n : Nat) : Prop where
  used : n ∈ s.used
  places : ∀ x, At s n x → match x with
    | .executor p => (∃ q, p = .getRunningLoop (Code.orRaise q)) ∨
        p = .ret (.error H.noRunningLoop)
    | .done o => o = .error H.noRunningLoop
    | _ => False

theorem NoLoop.step (h : NoLoop H s n) (hs : Step H s s') : NoLoop H s' n := by
  refine ⟨used_of_step hs h.used, fun x hx => ?_⟩
  obtain ⟨y, hy, hm⟩ := move_of_step hs h.used hx
  have hy := h.places y hy
  cases hm with
  | stay => exact hy
  | thread ha =>
    rcases hy with ⟨q, rfl⟩ | rfl
    · cases ha
      exact .inr rfl
    · cases ha
  | threadEnd =>
    rcases hy with ⟨q, hq⟩ | hq <;> cases hq
    rfl
  | reply _ | wake _ | pick | advance _ _ _ | await | wait | finish =>
    exact hy.elim

/-- Code for the loop that can only end with an exception in `E`. Of the futures in `G` it is
known that their threads have no loop. -/
def Doomed (H : Host C R ε σ) (E : ε → Prop) : (Nat → Prop) → Code C R ε → Prop
  | _, .ret o => ∃ e, o = .error e ∧ E e
  | G, .call c k | G, .await c k => ∀ r w w', H.exec c r w w' → Doomed H E G (k r)
  | G, .getRunningLoop k => Doomed H E G (k (.ok ()))
  | G, .runInExecutor p k => (∃ q, p = .getRunningLoop (Code.orRaise q)) ∧
      ∀ n, Doomed H E (fun m => m = n ∨ G m) (k n)
  | G, .wait n k => G n ∧ Doomed H E G (k (.error H.noRunningLoop))
  | _, .runCoroutineThreadsafe _ _ | _, .result _ _ => False

/-- The code of the future runs in the loop, and is doomed. -/
structure Condemned (H : Host C R ε σ) (E : ε → Prop) (s : Loop C R ε σ) (f : Nat) : Prop where
  used : f ∈ s.used
  places : ∀ x, At s f x → match x with
    | .running p | .ready p | .suspended p =>
      ∃ G : Nat → Prop, (∀ n, G n → NoLoop H s n) ∧ Doomed H E G p
    | .executor _ => False
    | .done o => ∃ e, o = .error e ∧ E e

theorem noLoop_of_unused {q : Code C R ε} (hn : n ∉ s.used) (hf : f ∈ s.used) :
    NoLoop H { s with
      executor := s.executor ++ [(n, .getRunningLoop (Code.orRaise q))]
      running := some (f, p) } n := by
  have hnot (x : Place C R ε) (hx : At s n x) : False := hn (mem_used.2 ⟨x, hx⟩)
  have hnew : (n, .getRunningLoop (Code.orRaise q)) ∈
      s.executor ++ [(n, .getRunningLoop (Code.orRaise q))] :=
    List.mem_append_right _ (List.mem_singleton_self _)
  refine ⟨mem_used.2 ⟨.executor _, hnew⟩, fun x hx => ?_⟩
  cases x with
  | running p' =>
    cases hx
    exact hn hf
  | ready p' => exact hnot (.ready p') hx
  | suspended p' => exact hnot (.suspended p') hx
  | done o => exact (hnot (.done o) hx).elim
  | executor p' =>
    rcases List.mem_append.1 hx with hx | hx
    · exact (hnot (.executor p') hx).elim
    · cases List.mem_singleton.1 hx
      exact .inl ⟨q, rfl⟩

theorem Condemned.step {E : ε → Prop} (h : Condemned H E s f) (hs : Step H s s') :
    Condemned H E s' f := by
  have hmove {G : Nat → Prop} (hG : ∀ n, G n → NoLoop H s n) (n : Nat) (hn : G n) :
      NoLoop H s' n := (hG n hn).step hs
  refine ⟨used_of_step hs h.used, fun x hx => ?_⟩
  obtain ⟨y, hy, hm⟩ := move_of_step hs h.used hx
  have hy := h.places y hy
  cases hm with
  | stay =>
    cases x with
    | running p | ready p | suspended p =>
      obtain ⟨G, hG, hp⟩ := hy
      exact ⟨G, hmove hG, hp⟩
    | executor p | done o => exact hy
  | reply he =>
    obtain ⟨G, hG, hp⟩ := hy
    exact ⟨G, hmove hG, hp _ _ _ he⟩
  | wake ho =>
    obtain ⟨G, hG, hn, hp⟩ := hy
    have ho := (hG _ hn).places (.done _) ho
    subst ho
    exact ⟨G, hmove hG, hp⟩
  | thread _ | threadEnd => exact hy.elim
  | pick | await | wait =>
    obtain ⟨G, hG, hp⟩ := hy
    exact ⟨G, hmove hG, hp⟩
  | finish =>
    obtain ⟨G, hG, hp⟩ := hy
    exact hp
  | advance hr ha ht =>
    obtain ⟨G, hG, hp⟩ := hy
    cases ha with
    | call he => exact ⟨G, hmove hG, hp _ _ _ he⟩
    | getRunningLoop => exact ⟨G, hmove hG, hp⟩
    | runCoroutineThreadsafe _ | result _ | timeout _ => exact hp.elim
    | runInExecutor hn =>
      obtain ⟨⟨q, rfl⟩, hp⟩ := hp
      refine ⟨_, fun m hm => ?_, hp _⟩
      rcases hm with rfl | hm
      · rw [ht]
        exact noLoop_of_unused hn (mem_used.2 ⟨.running _, hr⟩)
      · exact hmove hG m hm

/-- However the loop runs, doomed code never returns. -/
theorem error_of_doomed {E : ε → Prop} {o : Except ε Unit} (h : ReflTransGen (Step H) s s')
    (hs : Condemned H E s f) (ho : (f, o) ∈ s'.done) : ∃ e, o = .error e ∧ E e := by
  have hs' : Condemned H E s' f := by
    clear ho
    induction h with
    | refl => exact hs
    | tail _ hstep ih => exact ih.step hstep
  exact hs'.places (.done o) ho

end Loop

end Concurrency
