import Orchestrator.Concurrency.Coroutine

namespace Concurrency
set_option autoImplicit true

/-- A coroutine that runs alone from one world to another, its commands answered by `E`. -/
inductive Coro.Eval {C : Type} {R : C → Type} (E : (c : C) → R c → σ → σ → Prop) :
    Coro C R α → σ → α → σ → Prop where
  | ret (a : α) (w : σ) : Eval E (.ret a) w a w
  | await {k : R c → Coro C R α} (h : E c r w w') (hk : Eval E (k r) w' a w'') :
      Eval E (.await c k) w a w''

namespace Coro
variable {C : Type} {R : C → Type} {E : (c : C) → R c → σ → σ → Prop}

theorem eval_ret : (Coro.ret a : Coro C R α).Eval E w b w' ↔ b = a ∧ w' = w := by
  constructor
  · intro h
    cases h
    exact ⟨rfl, rfl⟩
  · rintro ⟨rfl, rfl⟩
    exact .ret ..

theorem eval_await {k : R c → Coro C R α} :
    (Coro.await c k).Eval E w a w'' ↔ ∃ r w', E c r w w' ∧ (k r).Eval E w' a w'' := by
  constructor
  · intro h
    cases h with
    | await h hk => exact ⟨_, _, h, hk⟩
  · rintro ⟨r, w', h, hk⟩
    exact .await h hk

theorem eval_bind {p : Coro C R α} {f : α → Coro C R β} :
    (p.bind f).Eval E w b w'' ↔ ∃ a w', p.Eval E w a w' ∧ (f a).Eval E w' b w'' := by
  induction p generalizing w with
  | ret a =>
    constructor
    · exact fun h => ⟨a, w, .ret a w, h⟩
    · rintro ⟨a, w', h, hf⟩
      obtain ⟨rfl, rfl⟩ := eval_ret.1 h
      exact hf
  | await c k ih =>
    rw [await_bind, eval_await]
    constructor
    · rintro ⟨r, w', h, hk⟩
      obtain ⟨a, w₁, hp, hf⟩ := (ih r).1 hk
      exact ⟨a, w₁, .await h hp, hf⟩
    · rintro ⟨a, w₁, hp, hf⟩
      obtain ⟨r, w', h, hk⟩ := eval_await.1 hp
      exact ⟨r, w', h, (ih r).2 ⟨a, w₁, hk, hf⟩⟩

theorem Eval.mono {E' : (c : C) → R c → σ → σ → Prop} {p : Coro C R α}
    (h : ∀ c r w w', E c r w w' → E' c r w w') (hp : p.Eval E w a w') : p.Eval E' w a w' := by
  induction hp with
  | ret a w => exact .ret a w
  | await hc _ ih => exact .await (h _ _ _ _ hc) ih

/-- A coroutine whose commands are always answered comes to its end. -/
theorem Within.exists_eval {p : Coro C R α} (hp : p.Within S)
    (hS : ∀ c, S c → ∀ w, ∃ r w', E c r w w') (w : σ) : ∃ a w', p.Eval E w a w' := by
  induction p generalizing w with
  | ret a => exact ⟨a, w, .ret a w⟩
  | await c k ih =>
    obtain ⟨r, w₁, hr⟩ := hS c hp.1 w
    obtain ⟨a, w₂, ha⟩ := ih r (hp.2 r) w₁
    exact ⟨a, w₂, .await hr ha⟩

/-- A coroutine that runs alone from `w` gets a reply to every command and comes to an end with
`Q`. -/
def Ends (E : (c : C) → R c → σ → σ → Prop) (p : Coro C R α) (w : σ) (Q : α → σ → Prop) : Prop :=
  match p with
  | .ret a => Q a w
  | .await c k => (∃ r w', E c r w w') ∧ ∀ r w', E c r w w' → (k r).Ends E w' Q

theorem Ends.mono {p : Coro C R α} {Q Q' : α → σ → Prop} (hp : p.Ends E w Q)
    (h : ∀ a w, Q a w → Q' a w) : p.Ends E w Q' := by
  induction p generalizing w with
  | ret a => exact h a w hp
  | await c k ih => exact ⟨hp.1, fun r w' hr => ih r (hp.2 r w' hr)⟩

theorem ends_bind {p : Coro C R α} {f : α → Coro C R β} {Q : β → σ → Prop} :
    (p.bind f).Ends E w Q ↔ p.Ends E w fun a w' => (f a).Ends E w' Q := by
  induction p generalizing w with
  | ret a => exact Iff.rfl
  | await c k ih =>
    refine and_congr_right fun _ => forall_congr' fun r => forall_congr' fun w' => ?_
    exact imp_congr_right fun _ => ih r

theorem Ends.of_eval {p : Coro C R α} {Q : α → σ → Prop} (hp : p.Ends E w Q)
    (he : p.Eval E w a w') : Q a w' := by
  induction he with
  | ret a w => exact hp
  | await hr _ ih => exact ih (hp.2 _ _ hr)

theorem Ends.exists_eval {p : Coro C R α} {Q : α → σ → Prop} (hp : p.Ends E w Q) :
    ∃ a w', p.Eval E w a w' := by
  induction p generalizing w with
  | ret a => exact ⟨a, w, .ret a w⟩
  | await c k ih =>
    obtain ⟨r, w₁, hr⟩ := hp.1
    obtain ⟨a, w', ha⟩ := ih r (hp.2 r w₁ hr)
    exact ⟨a, w', .await hr ha⟩

end Coro

namespace Async
variable {C : Type} {P : C → Type} {E : (c : C) → Except ε (P c) → σ → σ → Prop}

theorem eval_pure : ((Pure.pure a : Async C P ε S α) s).Eval E w o w' ↔
    o = (.ok a, s) ∧ w' = w := Coro.eval_ret

theorem eval_call : ((call c : Async C P ε S (P c)) s).Eval E w o w' ↔
    ∃ r, E c r w w' ∧ o = (r, s) := by
  constructor
  · intro h
    obtain ⟨r, w₁, hr, hk⟩ := Coro.eval_await.1 h
    obtain ⟨rfl, rfl⟩ := Coro.eval_ret.1 hk
    exact ⟨r, hr, rfl⟩
  · rintro ⟨r, hr, rfl⟩
    exact .await hr (.ret ..)

theorem eval_bind {p : Async C P ε S α} {f : α → Async C P ε S β} :
    ((p >>= f) s).Eval E w o w'' ↔ ∃ r s' w', (p s).Eval E w (r, s') w' ∧
      match r with
      | .ok a => (f a s').Eval E w' o w''
      | .error e => o = (.error e, s') ∧ w'' = w' := by
  refine Coro.eval_bind.trans ?_
  constructor
  · rintro ⟨⟨r, s'⟩, w', hp, hf⟩
    refine ⟨r, s', w', hp, ?_⟩
    cases r with
    | ok a => exact hf
    | error e => exact Coro.eval_ret.1 hf
  · rintro ⟨r, s', w', hp, hf⟩
    refine ⟨(r, s'), w', hp, ?_⟩
    cases r with
    | ok a => exact hf
    | error e => exact Coro.eval_ret.2 hf

theorem ends_bind {p : Async C P ε S α} {f : α → Async C P ε S β}
    {Q : Except ε β × S → σ → Prop} : ((p >>= f) s).Ends E w Q ↔ (p s).Ends E w fun o w' =>
      match o with
      | (.ok a, s') => (f a s').Ends E w' Q
      | (.error e, s') => Q (.error e, s') w' := by
  refine Coro.ends_bind.trans ?_
  constructor <;> refine fun h => h.mono ?_ <;> rintro ⟨_ | _, _⟩ w' hf <;> exact hf

/-- What is done to the result is done after everything else. -/
theorem ends_map {p : Async C P ε S α} {g : α → β} {Q : Except ε β × S → σ → Prop} :
    ((p >>= fun a => Pure.pure (g a)) s).Ends E w Q ↔
      (p s).Ends E w fun o w' => Q (o.1.map g, o.2) w' := by
  refine ends_bind.trans ?_
  constructor <;> refine fun h => h.mono ?_ <;> rintro ⟨_ | _, _⟩ w' hq <;> exact hq

/-- A command with one reply and one effect. -/
theorem ends_call {c : C} {a : P c} {w₀ : σ} {Q : Except ε (P c) × S → σ → Prop}
    (h : ∀ r w', E c r w w' ↔ r = .ok a ∧ w' = w₀) :
    ((call c : Async C P ε S (P c)) s).Ends E w Q ↔ Q (.ok a, s) w₀ := by
  constructor
  · intro hp
    exact hp.2 _ _ ((h _ _).2 ⟨rfl, rfl⟩)
  · intro hq
    refine ⟨⟨_, _, (h _ _).2 ⟨rfl, rfl⟩⟩, fun r w' hr => ?_⟩
    obtain ⟨rfl, rfl⟩ := (h r w').1 hr
    exact hq

theorem ends_reply {c : C} {a : P c} {f : P c → Async C P ε S β} {w₀ : σ}
    {Q : Except ε β × S → σ → Prop} (h : ∀ r w', E c r w w' ↔ r = .ok a ∧ w' = w₀) :
    ((call c >>= f) s).Ends E w Q ↔ (f a s).Ends E w₀ Q := ends_bind.trans (ends_call h)

end Async

end Concurrency
