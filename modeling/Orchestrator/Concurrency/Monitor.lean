import Orchestrator.Concurrency.Logic

namespace Concurrency
set_option autoImplicit true

/-- A value for each process that is read off its labels, from its start on. -/
structure Monitor (C : Type) (R : C → Type) (δ : Type) where
  init : δ
  cmd : δ → (c : C) → R c → δ
  abort : δ → (c : C) → R c → δ

namespace Monitor
variable {C : Type} {R : C → Type} (m : Monitor C R δ)

def read (i : Nat) : List (Label C R β K E) → δ
  | [] => m.init
  | .cmd j c r :: tr => if j = i then m.cmd (read i tr) c r else read i tr
  | .abort j c r :: tr => if j = i then m.abort (read i tr) c r else read i tr
  | .spawn j _ :: tr | .exit j _ _ :: tr => if j = i then m.init else read i tr
  | .env _ :: tr => read i tr
  | .halt :: _ => m.init

section
variable {i j : Nat} {c : C} {r : R c} {q : K} {b : β} {tr : List (Label C R β K E)}

theorem read_cmd_self : m.read i (.cmd i c r :: tr) = m.cmd (m.read i tr) c r := if_pos rfl

theorem read_abort_self : m.read i (.abort i c r :: tr) = m.abort (m.read i tr) c r := if_pos rfl

theorem read_spawn_self : m.read i (.spawn i q :: tr) = m.init := if_pos rfl

theorem read_exit_self : m.read i (.exit i q b :: tr) = m.init := if_pos rfl

theorem read_cmd_of_ne (h : j ≠ i) : m.read j (.cmd i c r :: tr) = m.read j tr := if_neg h.symm

theorem read_abort_of_ne (h : j ≠ i) : m.read j (.abort i c r :: tr) = m.read j tr :=
  if_neg h.symm

theorem read_spawn_of_ne (h : j ≠ i) : m.read j (.spawn i q :: tr) = m.read j tr := if_neg h.symm

theorem read_exit_of_ne (h : j ≠ i) : m.read j (.exit i q b :: tr) = m.read j tr := if_neg h.symm

end

/-- The processes that have had a label of their own. -/
def actors : List (Label C R β K E) → List Nat
  | [] => []
  | .cmd i _ _ :: tr | .abort i _ _ :: tr | .spawn i _ :: tr | .exit i _ _ :: tr => i :: actors tr
  | .env _ :: tr | .halt :: tr => actors tr

theorem read_of_not_mem {tr : List (Label C R β K E)} (h : i ∉ actors tr) :
    m.read i tr = m.init := by
  induction tr with
  | nil => rfl
  | cons l tr ih =>
    cases l with
    | cmd _ _ _ =>
      exact (m.read_cmd_of_ne (List.ne_of_not_mem_cons h)).trans
        (ih (List.not_mem_of_not_mem_cons h))
    | abort _ _ _ =>
      exact (m.read_abort_of_ne (List.ne_of_not_mem_cons h)).trans
        (ih (List.not_mem_of_not_mem_cons h))
    | spawn _ _ =>
      exact (m.read_spawn_of_ne (List.ne_of_not_mem_cons h)).trans
        (ih (List.not_mem_of_not_mem_cons h))
    | exit _ _ _ =>
      exact (m.read_exit_of_ne (List.ne_of_not_mem_cons h)).trans
        (ih (List.not_mem_of_not_mem_cons h))
    | env e => exact ih h
    | halt => rfl

theorem forall_read_iff {P : δ → Prop} (h : P m.init) (tr : List (Label C R β K E)) :
    (∀ i, P (m.read i tr)) ↔ ∀ i ∈ actors tr, P (m.read i tr) := by
  refine ⟨fun hp i _ => hp i, fun hp i => ?_⟩
  by_cases hi : i ∈ actors tr
  · exact hp i hi
  · rw [m.read_of_not_mem hi]
    exact h

/-- The ghost values are what the monitor reads. Nothing else is required of a step. -/
def assertion (M : Machine C R β σ K E) : Assertion M δ where
  ok _ _ _ _ := True
  inv tr _ ds := ∀ i, m.read i tr = ds i
  guar _ _ _ := True

variable {M : Machine C R β σ K E} {m} {ds : Nat → δ} {tr : List (Label C R β K E)}

theorem read_update {l : Label C R β K E} (h : ∀ j, m.read j tr = ds j)
    (hi : m.read i (l :: tr) = d) (hj : ∀ j, j ≠ i → m.read j (l :: tr) = m.read j tr) (j : Nat) :
    m.read j (l :: tr) = Function.update ds i d j := by
  by_cases hji : j = i
  · rw [hji, hi, Function.update_self]
  · rw [hj j hji, h j, Function.update_of_ne hji]

theorem read_cmd (h : ∀ j, m.read j tr = ds j) (i : Nat) (c : C) (r : R c) (j : Nat) :
    m.read j (.cmd i c r :: tr) = Function.update ds i (m.cmd (ds i) c r) j := by
  apply read_update h
  · rw [read_cmd_self, h]
  · exact fun j hj => m.read_cmd_of_ne hj

theorem read_abort (h : ∀ j, m.read j tr = ds j) (i : Nat) (c : C) (r : R c) (j : Nat) :
    m.read j (.abort i c r :: tr) = Function.update ds i (m.abort (ds i) c r) j := by
  apply read_update h
  · rw [read_abort_self, h]
  · exact fun j hj => m.read_abort_of_ne hj

theorem read_spawn (h : ∀ j, m.read j tr = ds j) (i : Nat) (q : K) (j : Nat) :
    m.read j (.spawn i q :: tr) = Function.update ds i m.init j := by
  apply read_update h
  · exact m.read_spawn_self
  · exact fun j hj => m.read_spawn_of_ne hj

theorem read_exit (h : ∀ j, m.read j tr = ds j) (i : Nat) (q : K) (b : β) (j : Nat) :
    m.read j (.exit i q b :: tr) = Function.update ds i m.init j := by
  apply read_update h
  · exact m.read_exit_self
  · exact fun j hj => m.read_exit_of_ne hj

/-- What the monitor reads of each process is a part of its ghost value. -/
def Follows (m : Monitor C R δ) (f : γ → δ) (tr : List (Label C R β K E)) (gs : Nat → γ) : Prop :=
  ∀ i, m.read i tr = f (gs i)

namespace Follows
variable {f : γ → δ} {gs : Nat → γ} {g : γ}

theorem update {l : Label C R β K E} (h : m.Follows f tr gs) (hi : m.read i (l :: tr) = f g)
    (hj : ∀ j, j ≠ i → m.read j (l :: tr) = m.read j tr) :
    m.Follows f (l :: tr) (Function.update gs i g) := by
  intro j
  by_cases hji : j = i
  · rw [hji, hi, Function.update_self]
  · rw [hj j hji, h j, Function.update_of_ne hji]

theorem answer {w w' : σ} (h : m.Follows f tr gs) (ha : M.Answer i c r w w' l)
    (hcmd : M.exec i c r w w' → m.cmd (f (gs i)) c r = f g)
    (habort : M.abort i c r w w' → m.abort (f (gs i)) c r = f g) :
    m.Follows f (l :: tr) (Function.update gs i g) := by
  cases ha with
  | cmd hr =>
    apply h.update
    · rw [read_cmd_self, h i, hcmd hr]
    · exact fun j hj => m.read_cmd_of_ne hj
  | abort hr =>
    apply h.update
    · rw [read_abort_self, h i, habort hr]
    · exact fun j hj => m.read_abort_of_ne hj

theorem spawn (h : m.Follows f tr gs) (i : Nat) (q : K) (hg : f g = m.init) :
    m.Follows f (.spawn i q :: tr) (Function.update gs i g) := by
  apply h.update
  · rw [read_spawn_self, hg]
  · exact fun j hj => m.read_spawn_of_ne hj

theorem exit (h : m.Follows f tr gs) (i : Nat) (q : K) (b : β) (hg : f g = m.init) :
    m.Follows f (.exit i q b :: tr) (Function.update gs i g) := by
  apply h.update
  · rw [read_exit_self, hg]
  · exact fun j hj => m.read_exit_of_ne hj

end Follows

/-- A command is followed through its reply, and through its being cut short. -/
theorem safe_await {k : R c → Coro C R α} {Q : α → δ → Prop}
    (hcmd : ∀ r w w', M.exec i c r w w' → Safe (m.assertion M) i Q (k r) (m.cmd d c r))
    (habort : ∀ r w w', M.abort i c r w w' → Safe (m.assertion M) i Q (k r) (m.abort d c r)) :
    Safe (m.assertion M) i Q (.await c k) d := by
  rintro tr w ds l r w' hi rfl ha -
  cases ha with
  | cmd h => exact ⟨trivial, _, read_cmd hi i c r, hcmd r w w' h⟩
  | abort h => exact ⟨trivial, _, read_abort hi i c r, habort r w w' h⟩

/-- Commands that the monitor passes over. -/
theorem frames {W : C → Prop} (hcmd : ∀ c r, W c → m.cmd d c r = d)
    (habort : ∀ c r, W c → m.abort d c r = d) : (m.assertion M).Frames i W d := by
  rintro c hc tr w ds l r w' hi rfl ha -
  cases ha with
  | cmd _ =>
    have hread := read_cmd hi i c r
    rw [hcmd c r hc, Function.update_eq_self] at hread
    exact ⟨trivial, hread⟩
  | abort _ =>
    have hread := read_abort hi i c r
    rw [habort c r hc, Function.update_eq_self] at hread
    exact ⟨trivial, hread⟩

theorem safe_true (p : Coro C R α) : Safe (m.assertion M) i (fun _ _ => True) p d := by
  induction p generalizing d with
  | ret a => trivial
  | await c k ih => exact safe_await (fun r _ _ _ => ih r) fun r _ _ _ => ih r

theorem sound {Post : K → β → δ → Prop}
    (h : ∀ i q, Safe (m.assertion M) i (Post q) (M.body q) m.init) :
    (m.assertion M).Sound m.init Post w₀ where
  start _ := rfl
  spawn := by
    rintro tr w ds i q w' hi - - -
    exact ⟨trivial, m.init, read_spawn hi i q, h i q⟩
  exit := by
    rintro tr w ds i q b w' o hi - - -
    refine ⟨trivial, ?_⟩
    cases o with
    | none => exact read_exit hi i q b
    | some q' => exact ⟨m.init, read_exit hi i q b, h i q'⟩
  env := by
    rintro tr w ds e w' hi - -
    exact ⟨trivial, hi⟩
  halt := by
    rintro tr w ds w' hi - -
    exact ⟨trivial, fun _ => rfl⟩

/-- What a process has led to when it has come to its end. -/
theorem post_of_run (Post : K → β → δ → Prop)
    (h : ∀ i q, Safe (m.assertion M) i (Post q) (M.body q) m.init) {s : Config C R β σ K}
    (hr : Run M ok (.idle w₀) tr s) (hp : s.pool i = some (q, .ret b)) :
    Post q b (m.read i tr) := by
  have hr' : Run M (m.assertion M).ok (.idle w₀) tr s :=
    hr.refine fun _ _ _ _ _ _ _ => trivial
  obtain ⟨ds, hi⟩ := (sound h).holds hr'
  rw [show m.read i tr = ds i from hi.inv i]
  exact hi.safe i q _ hp

/-- Every answer to a command is as is demanded after what was read of the process before it. -/
def Meets (m : Monitor C R δ) (P : δ → (c : C) → R c → Prop) : List (Label C R β K E) → Prop
  | .cmd i c r :: tr | .abort i c r :: tr => P (m.read i tr) c r
  | _ => True

def demanding (m : Monitor C R δ) (M : Machine C R β σ K E) (P : δ → (c : C) → R c → Prop) :
    Assertion M δ where
  ok _ _ _ _ := True
  inv tr _ ds := (∀ i, m.read i tr = ds i) ∧ m.Meets P tr
  guar _ _ _ := True

section
variable {P : δ → (c : C) → R c → Prop}

theorem safe_demanded {k : R c → Coro C R α} {Q : α → δ → Prop} (hp : ∀ r, P d c r)
    (hcmd : ∀ r w w', M.exec i c r w w' → Safe (m.demanding M P) i Q (k r) (m.cmd d c r))
    (habort : ∀ r w w', M.abort i c r w w' → Safe (m.demanding M P) i Q (k r) (m.abort d c r)) :
    Safe (m.demanding M P) i Q (.await c k) d := by
  rintro tr w ds l r w' ⟨hi, -⟩ rfl ha -
  have hmeets : P (m.read i tr) c r := by
    rw [hi i]
    exact hp r
  cases ha with
  | cmd h => exact ⟨trivial, _, ⟨read_cmd hi i c r, hmeets⟩, hcmd r w w' h⟩
  | abort h => exact ⟨trivial, _, ⟨read_abort hi i c r, hmeets⟩, habort r w w' h⟩

/-- Commands of which nothing is demanded, and that the monitor passes over. -/
theorem frames_demanding {W : C → Prop} (hp : ∀ c r, W c → P d c r)
    (hcmd : ∀ c r, W c → m.cmd d c r = d) (habort : ∀ c r, W c → m.abort d c r = d) :
    (m.demanding M P).Frames i W d := by
  rintro c hc tr w ds l r w' ⟨hi, -⟩ hd ha -
  obtain ⟨-, hread⟩ := frames (M := M) hcmd habort c hc tr w ds l r w' hi hd ha trivial
  have hmeets : P (m.read i tr) c r := by
    rw [hi i, hd]
    exact hp c r hc
  cases ha with
  | cmd _ | abort _ => exact ⟨trivial, hread, hmeets⟩

/-- Commands of which nothing is demanded, whatever was read before. -/
theorem safe_undemanded {W : C → Prop} {p : Coro C R α} (hp : p.Within W)
    (hd : ∀ d c r, W c → P d c r) : Safe (m.demanding M P) i (fun _ _ => True) p d := by
  induction p generalizing d with
  | ret a => trivial
  | await c k ih =>
    apply safe_demanded fun r => hd d c r hp.1
    · exact fun r _ _ _ => ih r (hp.2 r)
    · exact fun r _ _ _ => ih r (hp.2 r)

theorem demanding_sound {Post : K → β → δ → Prop}
    (h : ∀ i q, Safe (m.demanding M P) i (Post q) (M.body q) m.init) :
    (m.demanding M P).Sound m.init Post w₀ where
  start := ⟨fun _ => rfl, trivial⟩
  spawn := by
    rintro tr w ds i q w' ⟨hi, -⟩ - - -
    exact ⟨trivial, m.init, ⟨read_spawn hi i q, trivial⟩, h i q⟩
  exit := by
    rintro tr w ds i q b w' o ⟨hi, -⟩ - - -
    refine ⟨trivial, ?_⟩
    cases o with
    | none => exact ⟨read_exit hi i q b, trivial⟩
    | some q' => exact ⟨m.init, ⟨read_exit hi i q b, trivial⟩, h i q'⟩
  env := by
    rintro tr w ds e w' ⟨hi, -⟩ - -
    exact ⟨trivial, hi, trivial⟩
  halt := by
    rintro tr w ds w' - - -
    exact ⟨trivial, fun _ => rfl, trivial⟩

/-- What is demanded holds of every answer of a run, and of what the processes have led to. -/
theorem meets_of_run {Post : K → β → δ → Prop}
    (h : ∀ i q, Safe (m.demanding M P) i (Post q) (M.body q) m.init) {s : Config C R β σ K}
    (hr : Run M ok (.idle w₀) tr s) :
    m.Meets P tr ∧ ∀ i q b, s.pool i = some (q, .ret b) → Post q b (m.read i tr) := by
  have hr' : Run M (m.demanding M P).ok (.idle w₀) tr s :=
    hr.refine fun _ _ _ _ _ _ _ => trivial
  obtain ⟨ds, hi⟩ := (demanding_sound h).holds hr'
  refine ⟨hi.inv.2, fun i q b hp => ?_⟩
  rw [hi.inv.1 i]
  exact hi.safe i q _ hp

end

section Wp
variable {P : C → Type} {M : Machine C (fun c => Except ε (P c)) β σ K E}
  {m : Monitor C (fun c => Except ε (P c)) δ}

theorem wp_call {Q : P c → S → δ → Prop} {X : ε → S → δ → Prop} {s : S}
    (hcmd : ∀ r w w', M.exec i c r w w' → Outcome Q X (r, s) (m.cmd d c r))
    (habort : ∀ r w w', M.abort i c r w w' → Outcome Q X (r, s) (m.abort d c r)) :
    Wp (m.assertion M) i (Async.call c : Async C P ε S (P c)) Q X s d :=
  safe_await hcmd habort

theorem wp_demanded {Q : P c → S → δ → Prop} {X : ε → S → δ → Prop} {s : S}
    {D : δ → (c : C) → Except ε (P c) → Prop} (hp : ∀ r, D d c r)
    (hcmd : ∀ r w w', M.exec i c r w w' → Outcome Q X (r, s) (m.cmd d c r))
    (habort : ∀ r w w', M.abort i c r w w' → Outcome Q X (r, s) (m.abort d c r)) :
    Wp (m.demanding M D) i (Async.call c : Async C P ε S (P c)) Q X s d :=
  safe_demanded hp hcmd habort

theorem wp_undemanded {p : Async C P ε S α} {W : C → Prop} {s : S}
    {D : δ → (c : C) → Except ε (P c) → Prop} (hp : Async.Within W p)
    (hd : ∀ d c r, W c → D d c r) :
    Wp (m.demanding M D) i p (fun _ _ _ => True) (fun _ _ _ => True) s d := by
  apply (safe_undemanded (hp s) hd).mono
  rintro ⟨o, s'⟩ d' _
  cases o <;> trivial

end Wp

end Monitor

end Concurrency
