import Orchestrator.Concurrency.Contract

namespace Concurrency
set_option autoImplicit true

/-- On commands with `S`, what one machine does another one does too, in worlds that `V` relates. -/
structure Simulates {C : Type} {R : C → Type} (M : Machine C R β σ K E) (M' : Machine C R β τ K E)
    (S : C → Prop) (V : σ → τ → Prop) : Prop where
  body : ∀ q, M'.body q = M.body q
  answer : ∀ w v i c r w' l, V w v → S c → M.Answer i c r w w' l →
    ∃ v', M'.Answer i c r v v' l ∧ V w' v'
  spawn : ∀ w v q w', V w v → M.spawn q w w' → ∃ v', M'.spawn q v v' ∧ V w' v'
  exit : ∀ w v q b w' o, V w v → M.exit q b w w' o → ∃ v', M'.exit q b v v' o ∧ V w' v'
  env : ∀ w v e w', V w v → M.env e w w' → ∃ v', M'.env e v v' ∧ V w' v'
  halt : ∀ w v w', V w v → M.halt w w' → ∃ v', M'.halt v v' ∧ V w' v'

section
variable {C : Type} {R : C → Type} {M : Machine C R β σ K E} {M' : Machine C R β τ K E}
  {I : σ → Prop} {T : (c : C) → R c → Prop} {S : C → Prop} {V : σ → τ → Prop}

theorem Simulates.step {s s' : Config C R β σ K} {l : Label C R β K E} (h : Simulates M M' S V)
    (hk : Contract.Kept I T S s) (hv : V s.world v) (hs : M.Step s l s') :
    ∃ v', M'.Step ⟨v, s.pool⟩ l ⟨v', s'.pool⟩ ∧ V s'.world v' := by
  cases hs with
  | @answer i q c k r w l hp ha =>
    obtain ⟨v', ha', hv'⟩ := h.answer s.world v i c r w l hv (hk.pool i q _ hp).1 ha
    exact ⟨v', .answer hp ha', hv'⟩
  | @spawn i q w hp hsp =>
    obtain ⟨v', hsp', hv'⟩ := h.spawn s.world v q w hv hsp
    refine ⟨v', ?_, hv'⟩
    rw [← h.body q]
    exact .spawn hp hsp'
  | @exit i q b w o hp he =>
    obtain ⟨v', he', hv'⟩ := h.exit s.world v q b w o hv he
    refine ⟨v', ?_, hv'⟩
    simp only [← h.body]
    exact .exit hp he'
  | @env e w he =>
    obtain ⟨v', he', hv'⟩ := h.env s.world v e w hv he
    exact ⟨v', .env he', hv'⟩
  | @halt w hh =>
    obtain ⟨v', hh', hv'⟩ := h.halt s.world v w hv hh
    exact ⟨v', .halt hh', hv'⟩

/-- Runs in which processes keep to a contract are runs of the machine that simulates this one. -/
theorem Simulates.run {ok okC : StepFilter C R β σ K E} {ok' : StepFilter C R β τ K E} {w₀ : σ}
    {v₀ : τ} {s : Config C R β σ K} (h : Simulates M M' S V) (hM : Contract M okC I T S)
    (h₀ : I w₀) (hv₀ : V w₀ v₀) (hC : ∀ tr w l w', ok tr w l w' → okC tr w l w')
    (hok : ∀ tr w l w' v v', V w v → V w' v' → ok tr w l w' → ok' tr v l v')
    (hr : Run M ok (.idle w₀) tr s) :
    ∃ v, Run M' ok' (.idle v₀) tr ⟨v, s.pool⟩ ∧ V s.world v := by
  induction hr with
  | nil => exact ⟨v₀, .nil, hv₀⟩
  | cons hr hs ho ih =>
    obtain ⟨v, hr', hv⟩ := ih
    have hk := hM.kept h₀ (hr.refine fun _ _ _ _ _ _ => hC _ _ _ _)
    obtain ⟨v', hs', hv'⟩ := h.step hk hv hs
    exact ⟨v', .cons hr' hs' (hok _ _ _ _ v v' hv hv' ho), hv'⟩

end

end Concurrency
