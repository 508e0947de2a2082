import Mathlib.Logic.Relation
import Orchestrator.Concurrency.Eval
import Orchestrator.Concurrency.Logic

namespace Concurrency
set_option autoImplicit true

/-- A coroutine that runs alone from `w` can come to an end with `Q`, by some replies of `E`. -/
def Coro.Can {C : Type} {R : C → Type} (E : (c : C) → R c → σ → σ → Prop) (p : Coro C R α) (w : σ)
    (Q : α → σ → Prop) : Prop :=
  match p with
  | .ret a => Q a w
  | .await c k => ∃ r w', E c r w w' ∧ (k r).Can E w' Q

namespace Coro
variable {C : Type} {R : C → Type} {E : (c : C) → R c → σ → σ → Prop}

theorem can_iff {p : Coro C R α} {Q : α → σ → Prop} :
    p.Can E w Q ↔ ∃ a w', p.Eval E w a w' ∧ Q a w' := by
  induction p generalizing w with
  | ret a =>
    constructor
    · exact fun hq => ⟨a, w, .ret a w, hq⟩
    · rintro ⟨b, w', he, hq⟩
      obtain ⟨rfl, rfl⟩ := eval_ret.1 he
      exact hq
  | await c k ih =>
    constructor
    · rintro ⟨r, w₁, hr, hk⟩
      obtain ⟨a, w', he, hq⟩ := (ih r).1 hk
      exact ⟨a, w', .await hr he, hq⟩
    · rintro ⟨a, w', he, hq⟩
      obtain ⟨r, w₁, hr, hk⟩ := eval_await.1 he
      exact ⟨r, w₁, hr, (ih r).2 ⟨a, w', hk, hq⟩⟩

theorem Can.mono {p : Coro C R α} {Q Q' : α → σ → Prop} (hp : p.Can E w Q)
    (h : ∀ a w, Q a w → Q' a w) : p.Can E w Q' := by
  induction p generalizing w with
  | ret a => exact h a w hp
  | await c k ih =>
    obtain ⟨r, w', hr, hk⟩ := hp
    exact ⟨r, w', hr, ih r hk⟩

theorem Can.bind {p : Coro C R α} {f : α → Coro C R β} {Q : β → σ → Prop}
    (hp : p.Can E w fun a w' => (f a).Can E w' Q) : (p.bind f).Can E w Q := by
  induction p generalizing w with
  | ret a => exact hp
  | await c k ih =>
    obtain ⟨r, w', hr, hk⟩ := hp
    exact ⟨r, w', hr, ih r hk⟩

end Coro

namespace Async
variable {C : Type} {P : C → Type} {E : (c : C) → Except ε (P c) → σ → σ → Prop}

/-- An asynchronous function can return with `Q`, or raise with `X`. -/
def Can (E : (c : C) → Except ε (P c) → σ → σ → Prop) (p : Async C P ε S α)
    (Q : α → S → σ → Prop) (X : ε → S → σ → Prop) (s : S) (w : σ) : Prop :=
  (p s).Can E w (Outcome Q X)

section
variable {Q : α → S → σ → Prop} {X : ε → S → σ → Prop}

theorem Can.pure (a : α) (h : Q a s w) : Can E (Pure.pure a : Async C P ε S α) Q X s w := h

theorem Can.object {Q : S → S → σ → Prop} (h : Q s s w) :
    Can E (Async.object : Async C P ε S S) Q X s w := h

theorem Can.mutate {Q : Unit → S → σ → Prop} (f : S → S) (h : Q () (f s) w) :
    Can E (Async.mutate f : Async C P ε S Unit) Q X s w := h

theorem Can.returns {c : C} {Q : P c → S → σ → Prop} {a : P c} (h : E c (.ok a) w w')
    (hQ : Q a s w') : Can E (Async.call c : Async C P ε S (P c)) Q X s w := ⟨.ok a, w', h, hQ⟩

theorem Can.raises {c : C} {Q : P c → S → σ → Prop} {e : ε} (h : E c (.error e) w w')
    (hX : X e s w') : Can E (Async.call c : Async C P ε S (P c)) Q X s w :=
  ⟨.error e, w', h, hX⟩

theorem Can.bind {p : Async C P ε S β} {f : β → Async C P ε S α}
    (hp : Can E p (fun a s w => Can E (f a) Q X s w) X s w) : Can E (p >>= f) Q X s w := by
  apply Coro.Can.bind
  apply Coro.Can.mono hp
  rintro ⟨o, s'⟩ w' ho
  cases o with
  | ok a => exact ho
  | error e => exact ho

theorem Can.attempt {p : Async C P ε S α} {Q : Except ε α → S → σ → Prop}
    (hp : Can E p (fun a s w => Q (.ok a) s w) (fun e s w => Q (.error e) s w) s w) :
    Can E (Async.attempt p) Q X s w := by
  apply Coro.Can.bind
  apply Coro.Can.mono hp
  rintro ⟨o, s'⟩ w' ho
  cases o with
  | ok a => exact ho
  | error e => exact ho

theorem Can.ensure {p : Async C P ε S α} {q : Async C P ε S Unit}
    (hp : Can E p (fun a s w => Can E q (fun _ s w => Q a s w) X s w)
      (fun e s w => Can E q (fun _ s w => X e s w) X s w) s w) :
    Can E (Async.ensure p q) Q X s w := by
  apply Coro.Can.bind
  apply Coro.Can.mono hp
  rintro ⟨o, s'⟩ w' ho
  apply Coro.Can.bind
  cases o with
  | ok a =>
    apply Coro.Can.mono ho
    rintro ⟨o', s''⟩ w'' ho'
    cases o' with
    | ok _ => exact ho'
    | error e => exact ho'
  | error e =>
    apply Coro.Can.mono ho
    rintro ⟨o', s''⟩ w'' ho'
    cases o' with
    | ok _ => exact ho'
    | error e' => exact ho'

theorem Can.on {p : Async C P ε T α} (t : T)
    (hp : Can E p (fun a _ w => Q a s w) (fun e _ w => X e s w) t w) :
    Can E (Async.on t p) Q X s w := by
  apply Coro.Can.bind
  apply Coro.Can.mono hp
  rintro ⟨o, s'⟩ w' ho
  cases o with
  | ok a => exact ho
  | error e => exact ho

theorem Can.start {p : Async C P ε S α} {Q : Except ε α → σ → Prop}
    (hp : Can E p (fun a _ w => Q (.ok a) w) (fun e _ w => Q (.error e) w) s w) :
    (Async.start p s).Can E w Q := by
  apply Coro.Can.bind
  apply Coro.Can.mono hp
  rintro ⟨o, s'⟩ w' ho
  cases o with
  | ok a => exact ho
  | error e => exact ho

end

end Async

/-- A command is carried out after the world has moved by itself for a while. -/
def Machine.amid (M : Machine C R β σ K E) (i : Nat) (c : C) (r : R c) (w w' : σ) : Prop :=
  ∃ w₁, Relation.ReflTransGen (fun w w' => ∃ e, M.env e w w') w w₁ ∧ M.exec i c r w₁ w'

theorem Machine.amid_of_exec {M : Machine C R β σ K E} (h : M.exec i c r w w') :
    M.amid i c r w w' := ⟨w, .refl, h⟩

section
variable {M : Machine C R β σ K E} {ok : StepFilter C R β σ K E}
  {tr tr' : List (Label C R β K E)} {s : Config C R β σ K}

/-- The world may move by itself. -/
theorem Run.After.moves {pool : Nat → Option (K × Coro C R β)} {w w' : σ}
    (hok : ∀ tr w e w', ok tr w (.env e) w')
    (hm : Relation.ReflTransGen (fun w w' => ∃ e, M.env e w w') w w')
    (hr : Run.After M ok tr s tr' ⟨w, pool⟩) : ∃ tr'', Run.After M ok tr s tr'' ⟨w', pool⟩ := by
  induction hm with
  | refl => exact ⟨tr', hr⟩
  | tail _ he ih =>
    obtain ⟨tr₁, hr₁⟩ := ih
    obtain ⟨e, he⟩ := he
    exact ⟨_, .cons hr₁ (.env he) (hok _ _ _ _)⟩

/-- What a coroutine can do alone, its process can do in a run. -/
theorem Run.After.can {pool : Nat → Option (K × Coro C R β)} {p : Coro C R β} {w : σ}
    {Q : β → σ → Prop} (hcmd : ∀ tr w i c r w', ok tr w (.cmd i c r) w')
    (henv : ∀ tr w e w', ok tr w (.env e) w') (hp : pool i = some (q, p))
    (hc : p.Can (M.amid i) w Q) (hr : Run.After M ok tr s tr' ⟨w, pool⟩) :
    ∃ tr'' w' b, Run.After M ok tr s tr''
      ⟨w', Function.update pool i (some (q, .ret b))⟩ ∧ Q b w' := by
  induction p generalizing w tr' pool with
  | ret b =>
    refine ⟨tr', w, b, ?_, hc⟩
    rw [← hp, Function.update_eq_self]
    exact hr
  | await c k ih =>
    obtain ⟨r, w', ⟨w₁, hm, hx⟩, hk⟩ := hc
    obtain ⟨tr₁, hr₁⟩ := hr.moves henv hm
    have hr₂ : Run.After M ok tr s (.cmd i c r :: tr₁)
        ⟨w', Function.update pool i (some (q, k r))⟩ :=
      .cons hr₁ (.answer hp (.cmd hx)) (hcmd _ _ _ _ _ _)
    obtain ⟨tr'', w'', b, hr'', hq⟩ := ih r (Function.update_self ..) hk hr₂
    rw [Function.update_idem] at hr''
    exact ⟨tr'', w'', b, hr'', hq⟩

end

end Concurrency
