import Mathlib.Logic.Function.Basic

namespace Caching
set_option autoImplicit true

/-- A builder behind a cache. What it gives may depend on the moment of the call. -/
structure Memo (Q K V E : Type) where
  key : Q → K
  build : Nat → Q → Except E V

inductive Call (Q : Type) where
  | get (q : Q)
  | clear

abbrev Cache (K V : Type) : Type := List (K × V)

namespace Memo
variable {Q K V E : Type} [BEq K]

def get (m : Memo Q K V E) (n : Nat) (q : Q) (cache : Cache K V) : Except E V × Cache K V :=
  match cache.lookup (m.key q) with
  | some v => (.ok v, cache)
  | none => match m.build n q with
    | .ok v => (.ok v, cache ++ [(m.key q, v)])
    | .error e => (.error e, cache)

def step (m : Memo Q K V E) (n : Nat) (cache : Cache K V) : Option (Call Q) → Cache K V
  | some (.get q) => (m.get n q cache).2
  | some .clear => []
  | none => cache

/-- The cache after the first calls. -/
def cacheAt (m : Memo Q K V E) (calls : List (Call Q)) : Nat → Cache K V
  | 0 => []
  | n + 1 => m.step n (m.cacheAt calls n) calls[n]?

def Returns (m : Memo Q K V E) (calls : List (Call Q)) (n : Nat) (q : Q) (v : V) : Prop :=
  calls[n]? = some (.get q) ∧ (m.get n q (m.cacheAt calls n)).1 = .ok v

def Raises (m : Memo Q K V E) (calls : List (Call Q)) (n : Nat) (q : Q) (e : E) : Prop :=
  calls[n]? = some (.get q) ∧ (m.get n q (m.cacheAt calls n)).1 = .error e

/-- A value that is built at different moments is never the same. -/
def Fresh (m : Memo Q K V E) : Prop :=
  ∀ n n' q q' v, m.build n q = .ok v → m.build n' q' = .ok v → n = n'

end Memo

namespace Memo
variable {Q K V E : Type} [BEq K] {m : Memo Q K V E} {calls : List (Call Q)} {n n' : Nat}
  {q q' : Q} {v v' : V} {e : E} {cache : Cache K V} {k : K}

/-- The ways in which a call goes. -/
theorem get_cases (m : Memo Q K V E) (n : Nat) (q : Q) (cache : Cache K V) :
    (∃ v, cache.lookup (m.key q) = some v ∧ m.get n q cache = (.ok v, cache)) ∨
    (∃ v, cache.lookup (m.key q) = none ∧ m.build n q = .ok v ∧
      m.get n q cache = (.ok v, cache ++ [(m.key q, v)])) ∨
    ∃ e, cache.lookup (m.key q) = none ∧ m.build n q = .error e ∧
      m.get n q cache = (.error e, cache) := by
  unfold get
  cases hl : cache.lookup (m.key q) with
  | some v => exact .inl ⟨v, rfl, rfl⟩
  | none =>
    cases hb : m.build n q with
    | ok v => exact .inr (.inl ⟨v, rfl, rfl, rfl⟩)
    | error e => exact .inr (.inr ⟨e, rfl, rfl, rfl⟩)

theorem lookup_insert (k k' : K) (v : V) (cache : Cache K V) :
    (cache ++ [(k', v)]).lookup k = (cache.lookup k).or (if k == k' then some v else none) := by
  rw [List.lookup_append, List.lookup_cons, List.lookup_nil]
  cases k == k' <;> rfl

theorem lookup_step (h : cache.lookup k = some v) {call : Option (Call Q)}
    (hclear : call ≠ some .clear) : (m.step n cache call).lookup k = some v := by
  match call with
  | none => exact h
  | some .clear => exact absurd rfl hclear
  | some (.get q) =>
    rw [step]
    obtain ⟨_, _, hg⟩ | ⟨w, _, _, hg⟩ | ⟨_, _, _, hg⟩ := m.get_cases n q cache
    · rwa [hg]
    · rw [hg, lookup_insert, h, Option.some_or]
    · rwa [hg]

theorem cacheAt_append {more : List (Call Q)} (h : n ≤ calls.length) :
    m.cacheAt (calls ++ more) n = m.cacheAt calls n := by
  induction n with
  | zero => rfl
  | succ n ih => rw [cacheAt, cacheAt, ih (Nat.le_of_succ_le h), List.getElem?_append_left h]

/-- What a call has returned does not depend on later calls. -/
theorem Returns.append (h : m.Returns calls n q v) (more : List (Call Q)) :
    m.Returns (calls ++ more) n q v := by
  obtain ⟨hc, hv⟩ := h
  obtain ⟨hn, -⟩ := List.getElem?_eq_some_iff.1 hc
  refine ⟨by rw [List.getElem?_append_left hn, hc], ?_⟩
  rw [cacheAt_append (Nat.le_of_lt hn)]
  exact hv

/-- A call that raises leaves the cache as it was. -/
theorem cacheAt_of_raises (h : m.Raises calls n q e) :
    m.cacheAt calls (n + 1) = m.cacheAt calls n := by
  obtain ⟨hc, ha⟩ := h
  rw [cacheAt, hc, step]
  obtain ⟨_, _, hg⟩ | ⟨_, _, _, hg⟩ | ⟨_, _, _, hg⟩ := m.get_cases n q (m.cacheAt calls n)
  · rw [hg] at ha
    cases ha
  · rw [hg] at ha
    cases ha
  · rw [hg]

variable [LawfulBEq K]

/-- What is in the cache was built in an earlier call for a request with that key. -/
theorem cached (h : (m.cacheAt calls n).lookup k = some v) :
    ∃ n' < n, ∃ q, calls[n']? = some (.get q) ∧ m.key q = k ∧ m.build n' q = .ok v := by
  induction n with
  | zero => cases h
  | succ n ih =>
    have hold (h : (m.cacheAt calls n).lookup k = some v) : ∃ n' < n + 1, ∃ q,
        calls[n']? = some (.get q) ∧ m.key q = k ∧ m.build n' q = .ok v := by
      obtain ⟨n', hn, hq⟩ := ih h
      exact ⟨n', Nat.lt_succ_of_lt hn, hq⟩
    rw [cacheAt] at h
    match hc : calls[n]? with
    | none =>
      rw [hc] at h
      exact hold h
    | some .clear =>
      rw [hc] at h
      cases h
    | some (.get q) =>
      rw [hc, step] at h
      obtain ⟨_, _, hg⟩ | ⟨w, hnone, hb, hg⟩ | ⟨_, _, _, hg⟩ := m.get_cases n q (m.cacheAt calls n)
      · rw [hg] at h
        exact hold h
      · rw [hg, lookup_insert, Option.or_eq_some_iff] at h
        obtain h | ⟨_, h⟩ := h
        · exact hold h
        · split at h
          · rename_i hk
            obtain rfl := Option.some.inj h
            exact ⟨n, Nat.lt_succ_self n, q, hc, (beq_iff_eq.1 hk).symm, hb⟩
          · cases h
      · rw [hg] at h
        exact hold h

/-- A call that returns gives what was built for a request with the same key. -/
theorem built_of_returns (h : m.Returns calls n q v) : ∃ n' ≤ n, ∃ q',
    calls[n']? = some (.get q') ∧ m.key q' = m.key q ∧ m.build n' q' = .ok v := by
  obtain ⟨hc, ha⟩ := h
  obtain ⟨w, hl, hg⟩ | ⟨w, _, hb, hg⟩ | ⟨_, _, _, hg⟩ := m.get_cases n q (m.cacheAt calls n)
  · rw [hg] at ha
    obtain rfl := Except.ok.inj ha
    obtain ⟨n', hn, q', hq⟩ := cached hl
    exact ⟨n', Nat.le_of_lt hn, q', hq⟩
  · rw [hg] at ha
    obtain rfl := Except.ok.inj ha
    exact ⟨n, Nat.le_refl n, q, hc, rfl, hb⟩
  · rw [hg] at ha
    cases ha

/-- With a fresh builder, calls with different keys never give the same value. -/
theorem key_eq_of_returns (hfresh : m.Fresh) (h : m.Returns calls n q v)
    (h' : m.Returns calls n' q' v) : m.key q = m.key q' := by
  obtain ⟨i, _, p, hp, hk, hb⟩ := built_of_returns h
  obtain ⟨j, _, p', hp', hk', hb'⟩ := built_of_returns h'
  obtain rfl := hfresh _ _ _ _ _ hb hb'
  cases hp.symm.trans hp'
  exact hk.symm.trans hk'

/-- What a call gave stays in the cache up to the next `clear`. -/
theorem lookup_of_returns (h : m.Returns calls n q v) (hn : n < n')
    (hclear : ∀ i, n < i → i < n' → calls[i]? ≠ some .clear) :
    (m.cacheAt calls n').lookup (m.key q) = some v := by
  induction n' with
  | zero => cases hn
  | succ n' ih =>
    rw [cacheAt]
    obtain hlt | rfl := Nat.lt_succ_iff_lt_or_eq.1 hn
    · exact lookup_step (ih hlt fun i hi hi' => hclear i hi (Nat.lt_succ_of_lt hi'))
        (hclear n' hlt (Nat.lt_succ_self n'))
    · obtain ⟨hc, ha⟩ := h
      rw [hc, step]
      obtain ⟨w, hl, hg⟩ | ⟨w, hl, _, hg⟩ | ⟨_, _, _, hg⟩ := m.get_cases n q (m.cacheAt calls n)
      · rw [hg] at ha ⊢
        obtain rfl := Except.ok.inj ha
        exact hl
      · rw [hg] at ha ⊢
        obtain rfl := Except.ok.inj ha
        rw [lookup_insert, hl, if_pos (beq_self_eq_true _), Option.none_or]
      · rw [hg] at ha
        cases ha

/-- Without a `clear` in between, calls with one key give one value. -/
theorem eq_of_returns (h : m.Returns calls n q v) (h' : m.Returns calls n' q' v')
    (hkey : m.key q = m.key q') (hn : n < n')
    (hclear : ∀ i, n < i → i < n' → calls[i]? ≠ some .clear) : v = v' := by
  have hl := lookup_of_returns h hn hclear
  rw [hkey] at hl
  have ha := h'.2
  rw [get, hl] at ha
  exact Except.ok.inj ha

theorem lookup_none_step (h : cache.lookup k = none) {call : Option (Call Q)}
    (hget : ∀ q v, call = some (.get q) → m.key q = k → (m.get n q cache).1 ≠ .ok v) :
    (m.step n cache call).lookup k = none := by
  match call with
  | none => exact h
  | some .clear => rfl
  | some (.get q) =>
    rw [step]
    obtain ⟨_, _, hg⟩ | ⟨w, _, _, hg⟩ | ⟨_, _, _, hg⟩ := m.get_cases n q cache
    · rwa [hg]
    · rw [hg, lookup_insert, h, Option.none_or, if_neg]
      intro hk
      exact hget q w rfl (beq_iff_eq.1 hk).symm (by rw [hg])
    · rwa [hg]

/-- After a call that raises, the next call for the same key builds again. -/
theorem builds_again (h : m.Raises calls n q e) (hn : n < n')
    (hget : ∀ i q' v, n < i → i < n' → m.key q' = m.key q → ¬m.Returns calls i q' v) :
    (m.get n' q (m.cacheAt calls n')).1 = m.build n' q := by
  have hnone : (m.cacheAt calls n').lookup (m.key q) = none := by
    induction n' with
    | zero => cases hn
    | succ n' ih =>
      obtain hlt | rfl := Nat.lt_succ_iff_lt_or_eq.1 hn
      · rw [cacheAt]
        refine lookup_none_step (ih hlt fun i q' v hi hi' => hget i q' v hi
          (Nat.lt_succ_of_lt hi')) ?_
        intro q' v hc hk ha
        exact hget n' q' v hlt (Nat.lt_succ_self n') hk ⟨hc, ha⟩
      · rw [cacheAt_of_raises h]
        obtain ⟨_, ha⟩ := h
        obtain ⟨_, _, hg⟩ | ⟨_, _, _, hg⟩ | ⟨_, hl, _, _⟩ := m.get_cases n q (m.cacheAt calls n)
        · rw [hg] at ha
          cases ha
        · rw [hg] at ha
          cases ha
        · exact hl
  rw [get, hnone]
  cases m.build n' q <;> rfl

end Memo

end Caching
