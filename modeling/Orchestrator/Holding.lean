import Orchestrator.Delivery
import Orchestrator.Effect

namespace Orchestrator
open Concurrency Async Progress
set_option autoImplicit true

namespace Progress

/-- What a process has, by how far it is. -/
def hold : Progress → Hold
  | .gone => .gone
  | .scanning => .scans none
  | .read t | .marked t => .scans (some t)
  | .idle | .finishing _ | .closing _ | .halting _ => .free
  | .stored t | .indexed t | .queueing t | .taken t | .locked t | .running t | .started t
  | .streaming t _ | .streamed t | .failed t _ | .retrying t => .owns t

/-- The stage in which the process lives. -/
def stage : Progress → Option Stage
  | .gone => none
  | .scanning | .read _ | .marked _ => some .recovering
  | _ => some .serving

theorem stage_hold (d : Progress) : d.hold.stage = d.stage := by cases d <;> rfl

end Progress

theorem hold_entry (q : Kind) : q.entry.hold = q.hold := by cases q <;> rfl

theorem hold_next (o : Option Kind) :
    (o.elim .gone Kind.entry).hold = (o.map Kind.hold).getD .gone := by
  cases o with
  | none => rfl
  | some q => exact hold_entry q

section
variable [TaskJson Text]

/-- No move takes a process out of its stage. -/
theorem Move.stage {S : Setup Event} {c : Cmd Text Event} {r : c.Answer} (hm : Move S d c r d') :
    d'.stage = d.stage := by
  cases hm with
  | acquire | store _ _ => exact granted_eq rfl rfl rfl
  | index => exact settle_eq (entered_eq rfl rfl) fun _ => rfl
  | reject _ _ | succeed _ _ | fail _ _ _ | abandon _ _ _ =>
    exact settle_eq (finished_eq rfl rfl) fun _ => rfl
  | wait => exact settle_eq rfl fun _ => cutShort_eq fun _ => rfl
  | clear => exact settle_eq rfl fun _ => unclear_eq (fun _ => rfl) rfl
  | mark _ _ _ | register _ | run _ _ | start | halt _ _ | hangUp | retry _ _ _ _ =>
    exact settle_eq rfl fun _ => rfl
  | _ => rfl

end

theorem exec_stage {c : Cmd Text Event} {r : c.Answer} {w w' : World Text Event}
    (h : exec c r w w') : w'.stage = w.stage := by
  cases c with
  | set _ _ | lpush _ =>
    obtain ⟨_, rfl⟩ := h
    rfl
  | setNx _ _ | brpop =>
    simp only [exec] at h
    split at h <;> obtain ⟨_, rfl⟩ := h <;> rfl
  | _ => exact (exec_quiet rfl h).stage

section
variable {ds : Nat → Progress} {w w' : World Text Event} {i : Nat}

namespace Stages

theorem spawn {q : Kind} (h : Stages w.stage (Progress.hold ∘ ds))
    (hs : Orchestrator.spawn q w w') :
    Stages w'.stage (Progress.hold ∘ Function.update ds i q.entry) := by
  rw [Function.comp_update, hold_entry]
  cases q with
  | recover =>
    obtain ⟨hst, rfl⟩ := hs
    have hgone : Progress.hold ∘ ds = fun _ => .gone := by
      funext j
      cases hd : (Progress.hold ∘ ds) j with
      | gone => rfl
      | _ =>
        have := h.now j _ (by rw [hd]; rfl)
        rw [hst] at this
        cases this
    rw [hgone]
    exact .scan i none
  | worker | request _ =>
    obtain ⟨hst, rfl⟩ := hs
    exact h.serve hst i rfl

theorem exit {q : Kind} {b : Except Exc Returned} {o : Option Kind}
    (h : Stages w.stage (Progress.hold ∘ ds)) (hd : ds i = q.entry)
    (he : Orchestrator.exit q b w w' o) :
    Stages w'.stage (Progress.hold ∘ Function.update ds i (o.elim .gone Kind.entry)) := by
  have hi : (Progress.hold ∘ ds) i = q.hold := by
    rw [Function.comp_apply, hd, hold_entry]
  rw [Function.comp_update, hold_next]
  cases q with
  | recover =>
    obtain rfl : o = none := by
      cases b <;> exact he.1
    have hgone : Function.update (Progress.hold ∘ ds) i .gone = fun _ => .gone := by
      funext j
      by_cases hj : j = i
      · rw [hj, Function.update_self]
      · rw [Function.update_of_ne hj, h.alone i j (by rw [hi]; rfl) hj]
    rw [Option.map_none, Option.getD_none, hgone]
    exact .idle _
  | worker =>
    cases b with
    | ok r =>
      obtain ⟨rfl, rfl⟩ := he
      cases w'.running with
      | true => exact h.update (by rw [hi]; rfl)
      | false => exact h.leave i
    | error e =>
      obtain ⟨rfl, rfl⟩ := he
      exact h.leave i
  | request body =>
    obtain ⟨rfl, rfl⟩ := he
    exact h.leave i

end Stages

variable [TaskJson Text] {S : Setup Event} {l : SysLabel Text Event} {d : Progress}

theorem answer_stage {c : Cmd Text Event} {r : c.Answer}
    (h : (orchestrator Text S sp ex).Answer i c r w w' l) : w'.stage = w.stage := by
  rcases answer_effect h with ⟨a, ha, _⟩ | ⟨_, hu⟩
  · exact exec_stage ha
  · exact hu.stage

theorem Stages.move {c : Cmd Text Event} {r : c.Answer} (h : Stages w.stage (Progress.hold ∘ ds))
    (ha : (orchestrator Text S sp ex).Answer i c r w w' l) (hm : Move S (ds i) c r d) :
    Stages w'.stage (Progress.hold ∘ Function.update ds i d) := by
  rw [Function.comp_update, answer_stage ha]
  apply h.update
  rw [stage_hold, hm.stage, Function.comp_apply, stage_hold]

end

end Orchestrator
