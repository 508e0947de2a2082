import Mathlib.Logic.Function.Basic

namespace Concurrency
set_option autoImplicit true

/-- A coroutine has returned, or is suspended on a command whose reply resumes it. -/
inductive Coro (C : Type) (R : C → Type) (α : Type) where
  | ret (a : α)
  | await (c : C) (k : R c → Coro C R α)

def Coro.bind (p : Coro C R α) (f : α → Coro C R β) : Coro C R β :=
  match p with
  | .ret a => f a
  | .await c k => .await c fun r => (k r).bind f

@[simp] theorem Coro.await_bind (c : C) (k : R c → Coro C R α) (f : α → Coro C R β) :
    (Coro.await c k).bind f = .await c fun r => (k r).bind f := rfl

/-- Every command the coroutine can issue, whatever the replies, satisfies `S`. -/
def Coro.Within (S : C → Prop) : Coro C R α → Prop
  | .ret _ => True
  | .await c k => S c ∧ ∀ r, (k r).Within S

theorem Coro.Within.bind {p : Coro C R α} {f : α → Coro C R β} (hp : p.Within S)
    (hf : ∀ a, (f a).Within S) : (p.bind f).Within S := by
  induction p with
  | ret a => exact hf a
  | await c k ih => exact ⟨hp.1, fun r => ih r (hp.2 r)⟩

theorem Coro.Within.mono {p : Coro C R α} (hp : p.Within S) (h : ∀ c, S c → T c) :
    p.Within T := by
  induction p with
  | ret a => trivial
  | await c k ih => exact ⟨h c hp.1, fun r => ih r (hp.2 r)⟩

/-- Every command satisfies `S`, and the result `Q`. -/
def Coro.Leads (S : C → Prop) (Q : α → Prop) : Coro C R α → Prop
  | .ret a => Q a
  | .await c k => S c ∧ ∀ r, (k r).Leads S Q

theorem Coro.Leads.within {p : Coro C R α} (hp : p.Leads S Q) : p.Within S := by
  induction p with
  | ret a => trivial
  | await c k ih => exact ⟨hp.1, fun r => ih r (hp.2 r)⟩

theorem Coro.Leads.mono {p : Coro C R α} (hp : p.Leads S Q) (h : ∀ c, S c → T c) :
    p.Leads T Q := by
  induction p with
  | ret a => exact hp
  | await c k ih => exact ⟨h c hp.1, fun r => ih r (hp.2 r)⟩

theorem Coro.Within.leads {p : Coro C R α} (hp : p.Within S) : p.Leads S fun _ => True := by
  induction p with
  | ret a => trivial
  | await c k ih => exact ⟨hp.1, fun r => ih r (hp.2 r)⟩

theorem Coro.Leads.bind {p : Coro C R α} {f : α → Coro C R β} (hp : p.Leads S P)
    (hf : ∀ a, P a → (f a).Leads S Q) : (p.bind f).Leads S Q := by
  induction p with
  | ret a => exact hf a hp
  | await c k ih => exact ⟨hp.1, fun r => ih r (hp.2 r)⟩

/-- An asynchronous function works on an object of type `S` and may raise an `ε`. The object
keeps what was written to it when an exception passes through. -/
def Async (C : Type) (P : C → Type) (ε S α : Type) : Type :=
  S → Coro C (fun c => Except ε (P c)) (Except ε α × S)

namespace Async

def pure (a : α) : Async C P ε S α := fun s => .ret (.ok a, s)

def raise (e : ε) : Async C P ε S α := fun s => .ret (.error e, s)

def bind (p : Async C P ε S α) (f : α → Async C P ε S β) : Async C P ε S β := fun s =>
  (p s).bind fun o =>
    match o with
    | (.ok a, s') => f a s'
    | (.error e, s') => .ret (.error e, s')

instance : Monad (Async C P ε S) where
  pure := pure
  bind := bind

/-- Issue a command and wait for its reply, which may be an exception. -/
def call (c : C) : Async C P ε S (P c) := fun s => .await c fun r => .ret (r, s)

def object : Async C P ε S S := fun s => .ret (.ok s, s)

def mutate (f : S → S) : Async C P ε S Unit := fun s => .ret (.ok (), f s)

/-- `try: p`, with the way it ended as a value. -/
def attempt (p : Async C P ε S α) : Async C P ε S (Except ε α) := fun s =>
  (p s).bind fun o => .ret (.ok o.1, o.2)

/-- `try: p finally: q`. An exception of `q` replaces the outcome of `p`. -/
def ensure (p : Async C P ε S α) (q : Async C P ε S Unit) : Async C P ε S α := fun s =>
  (p s).bind fun o => (q o.2).bind fun o' =>
    match o'.1 with
    | .ok _ => .ret (o.1, o'.2)
    | .error e => .ret (.error e, o'.2)

/-- Run `p` on an object of its own. -/
def on (t : T) (p : Async C P ε T α) : Async C P ε S α := fun s =>
  (p t).bind fun o => .ret (o.1, s)

def ofExcept (x : Except ε α) : Async C P ε S α := fun s => .ret (x, s)

/-- Run to the result alone. -/
def start (p : Async C P ε S α) (s : S) : Coro C (fun c => Except ε (P c)) (Except ε α) :=
  (p s).bind fun o => .ret o.1

/-- The commands of an asynchronous function, on any object. -/
def Within (W : C → Prop) (p : Async C P ε S α) : Prop := ∀ s, (p s).Within W

section Within
variable {p : Async C P ε S α} {W : C → Prop}

theorem within_pure (a : α) : Within W (Pure.pure a : Async C P ε S α) := fun _ => trivial

theorem within_raise (e : ε) : Within W (raise e : Async C P ε S α) := fun _ => trivial

theorem within_call (h : W c) : Within W (call c : Async C P ε S (P c)) :=
  fun _ => ⟨h, fun _ => trivial⟩

theorem within_object : Within W (object : Async C P ε S S) := fun _ => trivial

theorem within_mutate (f : S → S) : Within W (mutate f : Async C P ε S Unit) := fun _ => trivial

theorem within_bind {f : α → Async C P ε S β} (hp : Within W p) (hf : ∀ a, Within W (f a)) :
    Within W (p >>= f) := by
  intro s
  apply (hp s).bind
  rintro ⟨o, s'⟩
  cases o with
  | ok a => exact hf a s'
  | error e => trivial

theorem within_attempt (hp : Within W p) : Within W (attempt p) :=
  fun s => (hp s).bind fun _ => trivial

theorem within_ensure {q : Async C P ε S Unit} (hp : Within W p) (hq : Within W q) :
    Within W (ensure p q) := by
  intro s
  apply (hp s).bind
  intro o
  apply (hq o.2).bind
  rintro ⟨o', s'⟩
  cases o' <;> trivial

theorem within_on {T : Type} {q : Async C P ε T α} (t : T) (hq : Within W q) :
    Within W (on t q : Async C P ε S α) :=
  fun _ => (hq t).bind fun _ => trivial

theorem Within.start (hp : Within W p) (s : S) : (start p s).Within W :=
  (hp s).bind fun _ => trivial

theorem Within.mono (hp : Within W p) (h : ∀ c, W c → V c) : Within V p :=
  fun s => (hp s).mono h

end Within

/-- The commands satisfy `W`, and the object keeps `I`, however the function ends. -/
def Keeps (W : C → Prop) (I : S → Prop) (p : Async C P ε S α) : Prop :=
  ∀ s, I s → (p s).Leads W fun o => I o.2

section Keeps
variable {p : Async C P ε S α} {W : C → Prop} {I : S → Prop}

theorem Keeps.within (hp : Keeps W I p) (hI : ∀ s, I s) : Within W p :=
  fun s => (hp s (hI s)).within

theorem Keeps.mono (hp : Keeps W I p) (h : ∀ c, W c → V c) : Keeps V I p :=
  fun s hs => (hp s hs).mono h

theorem keeps_pure (a : α) : Keeps W I (Pure.pure a : Async C P ε S α) := fun _ h => h

theorem keeps_raise (e : ε) : Keeps W I (raise e : Async C P ε S α) := fun _ h => h

theorem keeps_call (h : W c) : Keeps W I (call c : Async C P ε S (P c)) :=
  fun _ hs => ⟨h, fun _ => hs⟩

theorem keeps_mutate {f : S → S} (h : ∀ s, I s → I (f s)) :
    Keeps W I (mutate f : Async C P ε S Unit) := h

theorem keeps_bind {f : α → Async C P ε S β} (hp : Keeps W I p) (hf : ∀ a, Keeps W I (f a)) :
    Keeps W I (p >>= f) := by
  intro s hs
  apply (hp s hs).bind
  rintro ⟨o, s'⟩ hs'
  cases o with
  | ok a => exact hf a s' hs'
  | error e => exact hs'

/-- The object that is read satisfies what it keeps. -/
theorem keeps_object_bind {f : S → Async C P ε S β} (hf : ∀ s, I s → Keeps W I (f s)) :
    Keeps W I (object >>= f) := fun s hs => hf s hs s hs

theorem keeps_attempt (hp : Keeps W I p) : Keeps W I (attempt p) :=
  fun s hs => (hp s hs).bind fun _ ho => ho

end Keeps

end Async

end Concurrency
